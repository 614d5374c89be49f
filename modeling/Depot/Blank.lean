/-!
# Blank text

Names, locations, creators and approvers must not be blank. Blank means nothing but characters
with the Unicode property `White_Space`, which is a wider class than the ASCII blanks of
`Char.isWhitespace` (`isWhiteSpace_of_isWhitespace`).
-/

namespace Depot

/-- The characters with the Unicode property `White_Space`. -/
def isWhiteSpace (c : Char) : Bool :=
  let n := c.toNat
  (0x0009 ≤ n && n ≤ 0x000D) || n == 0x0020 || n == 0x0085 || n == 0x00A0 || n == 0x1680 ||
    (0x2000 ≤ n && n ≤ 0x200A) || n == 0x2028 || n == 0x2029 || n == 0x202F || n == 0x205F ||
    n == 0x3000

/-- The text has no character outside `White_Space`; the empty text is blank. -/
def isBlank (s : String) : Bool := s.toList.all isWhiteSpace

theorem isWhiteSpace_of_isWhitespace {c : Char} (h : c.isWhitespace = true) :
    isWhiteSpace c = true := by
  simp only [Char.isWhitespace, Bool.or_eq_true, decide_eq_true_eq] at h
  rcases h with ((h | h) | h) | h <;> subst h <;> decide

end Depot
