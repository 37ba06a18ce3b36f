/-!
# White space

The characters with the Unicode property `White_Space`, and text without them at its two ends.
Main statement: what `Char.isWhitespace` calls white space has the property
(`isWhiteSpace_of_isWhitespace`).
-/

set_option autoImplicit false

namespace RiscvBoot.Text

/-- The codes of the white space characters, as ranges. -/
def whiteSpaceRanges : List (Nat × Nat) :=
  [(0x09, 0x0D), (0x20, 0x20), (0x85, 0x85), (0xA0, 0xA0), (0x1680, 0x1680), (0x2000, 0x200A),
    (0x2028, 0x2029), (0x202F, 0x202F), (0x205F, 0x205F), (0x3000, 0x3000)]

def isWhiteSpace (c : Char) : Bool :=
  whiteSpaceRanges.any fun range => range.1 ≤ c.toNat && c.toNat ≤ range.2

theorem isWhiteSpace_of_isWhitespace {c : Char} (h : c.isWhitespace = true) :
    isWhiteSpace c = true := by
  simp only [Char.isWhitespace, Bool.or_eq_true, decide_eq_true_eq] at h
  rcases h with ((rfl | rfl) | rfl) | rfl <;> decide

def trimmed (text : String) : String :=
  let rest := text.toList.dropWhile isWhiteSpace
  String.ofList (rest.reverse.dropWhile isWhiteSpace).reverse

end RiscvBoot.Text
