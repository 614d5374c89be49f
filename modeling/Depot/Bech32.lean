import Depot.Bytes
/-!
# Bech32m

Generated identifiers are Bech32m texts: a human-readable part, the separator `1`, the data in
letters of five bits each, and six letters of checksum. `Hrp.parse` checks a human-readable part,
`encode` writes a text and `decode?` reads one back, its checksum verified.
-/

namespace Depot.Bech32

/-! ## Human-readable parts -/

/-- Why a text is no human-readable part. -/
inductive HrpFault where
  | empty
  | tooLong (length : Nat)
  | nonAscii (c : Char)
  | unprintable (c : Char)
  | mixedCase
  deriving DecidableEq, Repr

/-- The lower-case hexadecimal form of a number below 256, without leading zeros. -/
def hexByte (n : Nat) : String :=
  String.ofList (if n < 16 then [Bytes.hexDigit n]
    else [Bytes.hexDigit (n / 16 % 16), Bytes.hexDigit (n % 16)])

/-- The fault in words. -/
def HrpFault.message : HrpFault → String
  | .empty => "hrp is empty, must have at least 1 character"
  | .tooLong n => s!"hrp is too long, found {n} characters, must be <= 126"
  | .nonAscii c => "found non-ASCII character: " ++ c.toString
  | .unprintable c => "byte value is not valid US-ASCII: '" ++ hexByte c.toNat ++ "'"
  | .mixedCase => "hrp cannot mix upper and lower case"

/-- A human-readable part in lower case. -/
structure Hrp where
  text : String
  deriving DecidableEq, Repr

/-- The greatest number of bytes of a human-readable part. -/
def maxHrpLength : Nat := 83

/-- The first fault among the characters, if any; `lower` and `upper` tell which cases occurred. -/
def findFault (lower upper : Bool) : List Char → Option HrpFault
  | [] => none
  | c :: rest =>
    if 127 < c.toNat then some (.nonAscii c)
    else if c.toNat < 33 || 126 < c.toNat then some (.unprintable c)
    else
      let lower := lower || c.isLower
      let upper := upper || c.isUpper
      if lower && upper then some .mixedCase else findFault lower upper rest

/-- The human-readable part spelled by a text: 1 to 83 printable ASCII characters, not of both
cases. -/
def Hrp.parse (s : String) : Except HrpFault Hrp :=
  let length := (Bytes.ofText s).length
  if length = 0 then .error .empty
  else if maxHrpLength < length then .error (.tooLong length)
  else
    match findFault false false s.toList with
    | some fault => .error fault
    | none => .ok ⟨String.ofList (s.toList.map Char.toLower)⟩

/-! ## Letters -/

/-- The letter for each number of five bits. -/
def letters : List Char := "qpzry9x8gf2tvdw0s3jn54khce6mua7l".toList

/-- The letter for a number below 32. -/
def letter (n : Nat) : Char := letters.getD n 'q'

/-- The number that a letter stands for. -/
def number? (c : Char) : Option Nat :=
  let i := letters.idxOf c
  if i < 32 then some i else none

/-- The last `n` bits of a number, most significant first. -/
def bits : Nat → Nat → List Bool
  | 0, _ => []
  | n + 1, k => bits n (k / 2) ++ [k % 2 == 1]

/-- The number with these bits, most significant first. -/
def ofBits (l : List Bool) : Nat := l.foldl (fun n b => 2 * n + b.toNat) 0

/-- The bits in groups of `width`, zeros added to the last one. The first argument bounds the
number of groups. -/
def regroup (width : Nat) : Nat → List Bool → List Nat
  | 0, _ => []
  | _, [] => []
  | fuel + 1, l =>
    let group := l.take width
    ofBits (group ++ List.replicate (width - group.length) false) ::
      regroup width fuel (l.drop width)

/-- Bytes as numbers of five bits. -/
def toFives (b : Bytes) : List Nat :=
  let all := b.flatMap fun d => bits 8 d.toNat
  regroup 5 all.length all

/-- Numbers of five bits as bytes; bits that fill no byte are dropped. -/
def ofFives (l : List Nat) : Bytes :=
  let all := l.flatMap (bits 5)
  let whole := all.take (all.length / 8 * 8)
  (regroup 8 whole.length whole).map UInt8.ofNat

/-! ## Checksum -/

/-- The generator words, one per bit shifted out. -/
def generator : List Nat := [0x3b6a57b2, 0x26508e6d, 0x1ea119fa, 0x3d4233dd, 0x2a1462b3]

/-- One step of the checksum, over one number of five bits. -/
def step (c n : Nat) : Nat :=
  let top := c >>> 25
  let shifted := ((c &&& 0x1ffffff) <<< 5) ^^^ n
  (generator.zipIdx).foldl (fun x (g, i) => if top.testBit i then x ^^^ g else x) shifted

/-- The remainder of a list of numbers. -/
def polymod (l : List Nat) : Nat := l.foldl step 1

/-- The human-readable part as numbers of five bits. -/
def Hrp.expand (h : Hrp) : List Nat :=
  h.text.toList.map (·.toNat / 32) ++ 0 :: h.text.toList.map (·.toNat % 32)

/-- The remainder of a text whose checksum is right. -/
def target : Nat := 0x2bc830a3

/-- The six numbers that make the remainder right. -/
def checksum (h : Hrp) (data : List Nat) : List Nat :=
  let r := polymod (h.expand ++ data ++ [0, 0, 0, 0, 0, 0]) ^^^ target
  [r >>> 25 &&& 31, r >>> 20 &&& 31, r >>> 15 &&& 31, r >>> 10 &&& 31, r >>> 5 &&& 31, r &&& 31]

/-! ## Texts -/

/-- The Bech32m text of a byte string. -/
def encode (h : Hrp) (payload : Bytes) : String :=
  let data := toFives payload
  String.ofList (h.text.toList ++ '1' :: (data ++ checksum h data).map letter)

/-- The part before the last separator and the part behind it. -/
def split? (s : String) : Option (String × String) :=
  let l := s.toList.reverse
  let tail := l.takeWhile (· ≠ '1')
  match l.dropWhile (· ≠ '1') with
  | [] => none
  | _ :: h => some (String.ofList h.reverse, String.ofList tail.reverse)

/-- The human-readable part and payload of a Bech32m text in lower case, if its checksum is
right. -/
def decode? (s : String) : Option (Hrp × Bytes) := do
  let (h, tail) ← split? s
  let numbers ← tail.toList.mapM number?
  let hrp : Hrp := ⟨h⟩
  guard (6 ≤ numbers.length ∧ polymod (hrp.expand ++ numbers) = target)
  return (hrp, ofFives (numbers.take (numbers.length - 6)))

end Depot.Bech32
