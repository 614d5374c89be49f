import Depot.Document.Codec
import Depot.Sha256
/-!
# The seal over a document's lines

When a document is posted, the SHA-256 digest of the stored form of its lines is recorded. A
document verifies as long as its lines still have that digest. A document without a posting
record has nothing to verify against.
-/

namespace Depot

/-- The stored form of a list of lines. -/
def linesBytes (lines : List DocumentLine) : Bytes :=
  Cbor.writeArray (lines.map DocumentLine.bytes)

theorem encode_lines (lines : List DocumentLine) : encode lines = .ok (linesBytes lines) := by
  have h (ls : List DocumentLine) :
      (ls.mapM encode : Except EncodeFault (List Bytes)) = .ok (ls.map DocumentLine.bytes) := by
    induction ls with
    | nil => rfl
    | cons l rest ih => rw [List.mapM_cons, ih]; rfl
  show (do return Cbor.writeArray (← lines.mapM encode) : Except EncodeFault Bytes) = _
  rw [h]; rfl

namespace Document

/-- The digest of the lines, in hexadecimal. -/
def contentHash (d : Document) : String := Bytes.hex (sha256 (linesBytes d.lines))

/-- Whether the lines still have the digest recorded at posting; false without a posting record. -/
def verifyContent (d : Document) : Bool :=
  match d.posting with
  | some record => record.contentHash == d.contentHash
  | none => false

end Document

end Depot
