import Depot.Cbor.Codec
import Depot.Ident
/-!
# Single items are read back

`Reads read b x` says that a reader takes exactly the bytes `b` off the front of its input and
gives `x`, whatever follows. Each writer of an item is matched with its reader in this sense.

The only condition is that a length or number fits the eight bytes that a head can spend on it.
For texts it is `TextFits`: every text in the memory of a machine has fewer than 2^64 bytes.

Main statements: `head_shape`, `reads_writeNat`, `reads_writeInt`, `reads_writeText`,
`readArrayHead_head` and `reads_writeArray`.
-/

namespace Depot.Cbor

/-- `read` takes exactly `b` off the front of its input and gives `x`. -/
def Reads {α : Type} (read : Reader α) (b : Bytes) (x : α) : Prop :=
  ∀ rest, read (b ++ rest) = .ok (x, rest)

/-- The bytes start with neither `null` nor a wide negative integer, so a field written as `b` is
not taken for an absent one. -/
def Present (b : Bytes) : Prop :=
  ∃ d t, b = d :: t ∧ d ≠ nullByte ∧ isWideNegative d = false

/-! ## Heads -/

theorem Major.ofCode_code (m : Major) : Major.ofCode m.code = m := by
  cases m <;> rfl

theorem Major.code_lt (m : Major) : m.code < 8 := by
  cases m <;> decide

/-- The first byte of a head tells the kind and how the argument is held. -/
theorem major_info_ofNat (m : Major) {k : Nat} (hk : k < 32) :
    major (UInt8.ofNat (m.code * 32 + k)) = m ∧ info (UInt8.ofNat (m.code * 32 + k)) = k := by
  have hm := m.code_lt
  have hn : (UInt8.ofNat (m.code * 32 + k)).toNat = m.code * 32 + k := by
    rw [UInt8.toNat_ofNat']
    omega
  constructor
  · rw [major, hn, show (m.code * 32 + k) / 32 = m.code by omega, Major.ofCode_code]
  · rw [info, hn]
    omega

theorem readBytes_append {b : Bytes} {n : Nat} (h : b.length = n) (rest : Bytes) :
    readBytes n (b ++ rest) = .ok (b, rest) := by
  subst h
  simp [readBytes]

theorem readBigEndian_bigEndian (width : Nat) {n : Nat} (h : n < Nat.pow 256 width) (rest : Bytes) :
    readBigEndian width (Bytes.bigEndian width n ++ rest) = .ok (n, rest) := by
  have hb := readBytes_append (Bytes.length_bigEndian width n) rest
  simp only [readBigEndian, hb, bind, Except.bind, Bytes.ofBigEndian_bigEndian h]
  rfl

/-- A head is one byte that tells the kind, and bytes from which the argument is read back. -/
theorem head_shape (m : Major) {n : Nat} (h : n ≤ maxUInt64) :
    ∃ b t, head m n = b :: t ∧ major b = m ∧ info b < 28 ∧
      ∀ rest, readArgument (info b) (t ++ rest) = .ok (n, rest) := by
  have hmax : maxUInt64 = 0xFFFFFFFFFFFFFFFF := rfl
  unfold head
  split
  · rename_i h0
    obtain ⟨hm, hi⟩ := major_info_ofNat m (show n < 32 by omega)
    refine ⟨_, [], rfl, hm, by omega, fun rest => ?_⟩
    rw [hi, readArgument, if_pos h0]
    rfl
  split
  · rename_i h1
    obtain ⟨hm, hi⟩ := major_info_ofNat m (show 24 < 32 by omega)
    refine ⟨_, _, rfl, hm, by omega, fun rest => ?_⟩
    rw [hi]
    exact readBigEndian_bigEndian 1 h1 rest
  split
  · rename_i h2
    obtain ⟨hm, hi⟩ := major_info_ofNat m (show 25 < 32 by omega)
    refine ⟨_, _, rfl, hm, by omega, fun rest => ?_⟩
    rw [hi]
    exact readBigEndian_bigEndian 2 h2 rest
  split
  · rename_i h4
    obtain ⟨hm, hi⟩ := major_info_ofNat m (show 26 < 32 by omega)
    refine ⟨_, _, rfl, hm, by omega, fun rest => ?_⟩
    rw [hi]
    exact readBigEndian_bigEndian 4 h4 rest
  · obtain ⟨hm, hi⟩ := major_info_ofNat m (show 27 < 32 by omega)
    refine ⟨_, _, rfl, hm, by omega, fun rest => ?_⟩
    rw [hi]
    exact readBigEndian_bigEndian 8 (show n < 0x10000000000000000 by omega) rest

/-- An item of a kind other than `negative` and `simple` is present. -/
theorem present_head (m : Major) {n : Nat} (h : n ≤ maxUInt64) (hneg : m ≠ .negative)
    (hsim : m ≠ .simple) (rest : Bytes) : Present (head m n ++ rest) := by
  obtain ⟨b, t, hb, hm, -, -⟩ := head_shape m h
  refine ⟨b, t ++ rest, by rw [hb]; rfl, ?_, ?_⟩
  · rintro rfl
    exact hsim (hm.symm.trans (by decide))
  · rw [Bool.eq_false_iff]
    intro hw
    simp only [isWideNegative, Bool.and_eq_true, decide_eq_true_eq, UInt8.le_iff_toNat_le] at hw
    have h38 : UInt8.toNat 0x38 = 56 := rfl
    have h3b : UInt8.toNat 0x3B = 59 := rfl
    have hc : b.toNat / 32 = 1 := by omega
    exact hneg (by rw [← hm, major, hc]; rfl)

/-! ## Numbers -/

theorem reads_writeNat {n : Nat} (h : n ≤ maxUInt64) : Reads readNat (writeNat n) n := by
  intro rest
  obtain ⟨b, t, hb, hm, hi, hr⟩ := head_shape .unsigned h
  simp [writeNat, hb, readNat, readByte, bind, Except.bind, hm, hi, hr]

theorem reads_uint64 (n : UInt64) : Reads readUInt64 (writeNat n.toNat) n := by
  intro rest
  have hn : n.toNat ≤ maxUInt64 := Nat.le_of_lt_succ n.toNat_lt
  simp only [readUInt64, reads_writeNat hn rest, bind, Except.bind, UInt64.ofNat_toNat]
  rfl

theorem reads_writeInt {i : Int} (h : fitsInt64 i = true) : Reads readInt (writeInt i) i := by
  intro rest
  have hmax : maxUInt64 = 0xFFFFFFFFFFFFFFFF := rfl
  have hmax' : maxInt64 = 0x7FFFFFFFFFFFFFFF := rfl
  simp only [fitsInt64, decide_eq_true_eq] at h
  by_cases hneg : i < 0
  · obtain ⟨b, t, hb, hm, hi, hr⟩ := head_shape .negative (n := (-1 - i).toNat) (by omega)
    have hle : (-1 - i).toNat ≤ maxInt64 := by omega
    have hback : -1 - (((-1 - i).toNat : Nat) : Int) = i := by omega
    simp only [writeInt, hneg, if_true, hb, List.cons_append, readInt, readByte, bind, Except.bind,
      hm, hi, hr, hle, hback]
  · obtain ⟨b, t, hb, hm, hi, hr⟩ := head_shape .unsigned (n := i.toNat) (by omega)
    have hle : i.toNat ≤ maxInt64 := by omega
    have hback : ((i.toNat : Nat) : Int) = i := by omega
    simp [writeInt, hneg, hb, readInt, readByte, bind, Except.bind, hm, hi, hr, hle, hback]

/-! ## Texts -/

/-- The UTF-8 form of the text has fewer than 2^64 bytes, as that of every text in memory. -/
def TextFits (s : String) : Prop := (Bytes.ofText s).length ≤ maxUInt64

instance : DecidablePred TextFits := fun s =>
  inferInstanceAs (Decidable ((Bytes.ofText s).length ≤ maxUInt64))

theorem reads_writeText {s : String} (h : TextFits s) : Reads readText (writeText s) s := by
  intro rest
  obtain ⟨b, t, hb, hm, hi, hr⟩ := head_shape .text h
  have hne : info b ≠ indefinite := by
    simp only [indefinite]
    omega
  have hbytes := readBytes_append (b := Bytes.ofText s) rfl rest
  simp [writeText, hb, readText, readByte, bind, Except.bind, hm, hne, hr, hbytes,
    Bytes.toText?_ofText]

theorem present_writeText {s : String} (h : TextFits s) : Present (writeText s) :=
  present_head .text h (by decide) (by decide) _

theorem reads_ident {e : Entity} {i : Ident e} (h : TextFits i.text) :
    Reads Stored.read (writeText i.text) i := by
  intro rest
  simp only [Stored.read, reads_writeText h rest, bind, Except.bind]
  rfl

/-! ## Arrays -/

theorem readArrayHead_head {n : Nat} (h : n ≤ maxUInt64) (rest : Bytes) :
    readArrayHead (head .array n ++ rest) = .ok (some n, rest) := by
  obtain ⟨b, t, hb, hm, hi, hr⟩ := head_shape .array h
  have hne : info b ≠ indefinite := by
    simp only [indefinite]
    omega
  simp [hb, readArrayHead, readByte, bind, Except.bind, hm, hne, hr]

theorem present_writeArray {items : List Bytes} (h : items.length ≤ maxUInt64) :
    Present (writeArray items) :=
  present_head .array h (by decide) (by decide) _

/-- Items that are read back one by one are read back together. -/
theorem readTimes_flatten {α : Type} {read : Reader α} {write : α → Bytes} {xs : List α}
    (h : ∀ x ∈ xs, Reads read (write x) x) (rest : Bytes) :
    readTimes read xs.length ((xs.map write).flatten ++ rest) = .ok (xs, rest) := by
  induction xs with
  | nil => rfl
  | cons x xs ih =>
    have hx := h x List.mem_cons_self ((xs.map write).flatten ++ rest)
    have hxs := ih fun y hy => h y (List.mem_cons_of_mem x hy)
    rw [List.map_cons, List.flatten_cons, List.append_assoc, List.length_cons, readTimes, hx]
    simp only [bind, Except.bind, hxs]
    rfl

/-- A list of items that are read back one by one is read back. -/
theorem reads_writeArray {α : Type} {read : Reader α} {write : α → Bytes} {xs : List α}
    (hlen : xs.length ≤ maxUInt64) (h : ∀ x ∈ xs, Reads read (write x) x) :
    Reads (readList read) (writeArray (xs.map write)) xs := by
  intro rest
  rw [writeArray, List.length_map, List.append_assoc, readList, readArrayHead_head hlen]
  exact readTimes_flatten h rest

end Depot.Cbor
