import EvalOrder.Text.LetterTable
import EvalOrder.Text.DigitTable
import EvalOrder.Text.UnprintableTable

/-!
# Character classes

The classes the reader of declarations tells apart, over all of Unicode 14: blanks (`is_whitespace`), letters
(`is_letter`), decimal digits (`is_digit`) and the last two together (`is_letter_or_digit`). And the printable
characters, which a quoted text shows as they are.

Results:
* `isLetterOrDigit_iff`: the class of the later characters of a name.
-/

namespace EvalOrder.Text

/-- The blanks: the white space of Unicode and the four information separators U+001C to U+001F. -/
def blankRanges : Ranges := [
  (0x9, 0xD), (0x1C, 0x20), (0x85, 0x85), (0xA0, 0xA0), (0x1680, 0x1680), (0x2000, 0x200A),
  (0x2028, 0x2029), (0x202F, 0x202F), (0x205F, 0x205F), (0x3000, 0x3000)]

/-- A character that separates tokens. -/
def isBlank (c : Char) : Bool := blankRanges.covers c.toNat

/-- A character that may begin a name. -/
def isLetter (c : Char) : Bool := letterRanges.covers c.toNat

/-- A decimal digit of any script. -/
def isDigit (c : Char) : Bool := digitRanges.covers c.toNat

/-- A character that may continue a name. -/
def isLetterOrDigit (c : Char) : Bool := isLetter c || isDigit c

/-- The value of a decimal digit of any script. -/
def digitValue? (n : Nat) : Option Nat :=
  (digitRanges.find? fun r => r.1 ≤ n ∧ n ≤ r.2).map fun r => (n - r.1) % 10

/-- A code point that a quoted text shows as it is. -/
def isPrintable (n : Nat) : Bool := !unprintableRanges.covers n

theorem isLetterOrDigit_iff {c : Char} :
    isLetterOrDigit c = true ↔ isLetter c = true ∨ isDigit c = true := by
  simp [isLetterOrDigit]

end EvalOrder.Text
