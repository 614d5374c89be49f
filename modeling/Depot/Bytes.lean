/-!
# Byte strings

Records, keys and digests are byte strings. This module holds the three readings of one that the
other modules share: the UTF-8 form of a text, the big-endian form of a number, and the
lower-case hexadecimal form that digests are written in.

Main statements: `toText?_ofText` and `ofText_of_toText?` make UTF-8 a bijection between texts and
the byte strings it accepts; `ofBigEndian_bigEndian` and `bigEndian_ofBigEndian` do the same for the
numbers that fit a width; `ofHex?_hex` reads back the hexadecimal form.
-/

namespace Depot

/-- A string of bytes, first byte first. -/
abbrev Bytes := List UInt8

namespace Bytes

/-! ## Text -/

/-- The UTF-8 form of a text. -/
def ofText (s : String) : Bytes := s.toByteArray.data.toList

/-- The text with this UTF-8 form, if there is one. -/
def toText? (b : Bytes) : Option String := String.fromUTF8? ⟨b.toArray⟩

theorem toText?_ofText (s : String) : toText? (ofText s) = some s := by
  have h : (⟨s.toByteArray.data.toList.toArray⟩ : ByteArray) = s.toByteArray := rfl
  simp only [toText?, ofText, h, String.fromUTF8?, s.isValidUTF8, dite_true]
  rfl

theorem ofText_of_toText? {b : Bytes} {s : String} (h : toText? b = some s) : ofText s = b := by
  unfold toText? String.fromUTF8? at h
  split at h
  · cases h; rfl
  · cases h

theorem ofText_injective {s t : String} (h : ofText s = ofText t) : s = t := by
  have := toText?_ofText s
  rw [h, toText?_ofText t] at this
  exact (Option.some.inj this).symm

/-! ## Numbers -/

/-- The last `width` base-256 digits of `n`, most significant first. -/
def bigEndian : Nat → Nat → Bytes
  | 0, _ => []
  | width + 1, n => bigEndian width (n / 256) ++ [UInt8.ofNat n]

/-- The number with these base-256 digits, most significant first. -/
def ofBigEndian (b : Bytes) : Nat := b.foldl (fun n d => n * 256 + d.toNat) 0

@[simp] theorem length_bigEndian (width n : Nat) : (bigEndian width n).length = width := by
  induction width generalizing n with
  | zero => rfl
  | succ w ih => simp [bigEndian, ih]

theorem ofBigEndian_append_singleton (b : Bytes) (d : UInt8) :
    ofBigEndian (b ++ [d]) = ofBigEndian b * 256 + d.toNat := by
  simp [ofBigEndian]

theorem ofBigEndian_bigEndian {width n : Nat} (h : n < Nat.pow 256 width) :
    ofBigEndian (bigEndian width n) = n := by
  induction width generalizing n with
  | zero =>
    have h0 : n = 0 := Nat.lt_one_iff.mp h
    subst h0
    rfl
  | succ w ih =>
    have hs : Nat.pow 256 (w + 1) = Nat.pow 256 w * 256 := rfl
    have hq : n / 256 < Nat.pow 256 w := by omega
    simp only [bigEndian, ofBigEndian_append_singleton, ih hq, UInt8.toNat_ofNat']
    omega

theorem ofBigEndian_lt (b : Bytes) : ofBigEndian b < Nat.pow 256 b.length := by
  have key (l : Bytes) : ofBigEndian l.reverse < Nat.pow 256 l.length := by
    induction l with
    | nil => decide
    | cons d rest ih =>
      have hd := d.toNat_lt
      have hs : Nat.pow 256 (rest.length + 1) = Nat.pow 256 rest.length * 256 := rfl
      simp only [List.reverse_cons, List.length_cons, ofBigEndian_append_singleton, hs]
      omega
  simpa using key b.reverse

theorem bigEndian_ofBigEndian (b : Bytes) : bigEndian b.length (ofBigEndian b) = b := by
  have key (l : Bytes) : bigEndian l.length (ofBigEndian l.reverse) = l.reverse := by
    induction l with
    | nil => rfl
    | cons d rest ih =>
      have hd := d.toNat_lt
      have hq : (ofBigEndian rest.reverse * 256 + d.toNat) / 256 = ofBigEndian rest.reverse := by
        omega
      simp only [List.reverse_cons, List.length_cons, bigEndian, ofBigEndian_append_singleton, hq,
        ih]
      congr 2
      apply UInt8.toNat_inj.mp
      simp only [UInt8.toNat_ofNat']
      omega
  simpa using key b.reverse

/-- The 64-bit number held by an eight-byte row, big-endian; none for any other length. -/
def toUInt64? (b : Bytes) : Option UInt64 :=
  if b.length = 8 then some (UInt64.ofNat (ofBigEndian b)) else none

/-- The eight-byte big-endian form of a 64-bit number. -/
def ofUInt64 (n : UInt64) : Bytes := bigEndian 8 n.toNat

theorem toUInt64?_ofUInt64 (n : UInt64) : toUInt64? (ofUInt64 n) = some n := by
  have h : ofBigEndian (bigEndian 8 n.toNat) = n.toNat := ofBigEndian_bigEndian n.toNat_lt
  simp [toUInt64?, ofUInt64, h]

/-! ## Hexadecimal text -/

/-- The lower-case hexadecimal digit of a number below 16. -/
def hexDigit (n : Nat) : Char :=
  if n < 10 then Char.ofNat (48 + n) else Char.ofNat (87 + n)

/-- Two lower-case hexadecimal digits per byte. -/
def hexDigits (b : Bytes) : List Char :=
  b.flatMap fun d => [hexDigit (d.toNat / 16), hexDigit (d.toNat % 16)]

/-- The hexadecimal form of a byte string. -/
def hex (b : Bytes) : String := String.ofList (hexDigits b)

/-- The value of a hexadecimal digit, in either case. -/
def hexValue? (c : Char) : Option Nat :=
  if c.isDigit then some (c.toNat - 48)
  else if 'a' ≤ c && c ≤ 'f' then some (c.toNat - 87)
  else if 'A' ≤ c && c ≤ 'F' then some (c.toNat - 55)
  else none

/-- The bytes with these hexadecimal digits, two digits per byte. -/
def ofHexDigits? : List Char → Option Bytes
  | [] => some []
  | high :: low :: rest => do
    let b := UInt8.ofNat ((← hexValue? high) * 16 + (← hexValue? low))
    return b :: (← ofHexDigits? rest)
  | [_] => none

/-- The byte string with this hexadecimal form, in either case. -/
def ofHex? (s : String) : Option Bytes := ofHexDigits? s.toList

theorem hexValue?_hexDigit : ∀ n < 16, hexValue? (hexDigit n) = some n := by decide

theorem ofHex?_hex (b : Bytes) : ofHex? (hex b) = some b := by
  simp only [ofHex?, hex, String.toList_ofList]
  induction b with
  | nil => rfl
  | cons d rest ih =>
    have hd := d.toNat_lt
    have hv : d.toNat / 16 * 16 + d.toNat % 16 = d.toNat := by omega
    show ofHexDigits? (hexDigit (d.toNat / 16) :: hexDigit (d.toNat % 16) :: hexDigits rest) = _
    simp only [ofHexDigits?, hexValue?_hexDigit (d.toNat / 16) (by omega),
      hexValue?_hexDigit (d.toNat % 16) (by omega), ih, Option.bind_eq_bind, Option.bind_some, hv,
      UInt8.ofNat_toNat]
    rfl

theorem hex_injective {a b : Bytes} (h : hex a = hex b) : a = b := by
  have := ofHex?_hex a
  rw [h, ofHex?_hex b] at this
  exact (Option.some.inj this).symm

end Bytes

end Depot
