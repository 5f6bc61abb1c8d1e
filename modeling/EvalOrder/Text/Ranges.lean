/-!
# Ranges of code points

A character class is a list of closed ranges of code points in ascending order. `covers` looks a code point up and stops
at the first range that begins above it, so a look-up of a low code point reads few ranges.
-/

namespace EvalOrder.Text

/-- Closed ranges `(first, last)` of code points. -/
abbrev Ranges := List (Nat × Nat)

namespace Ranges

/-- `n` lies in one of the ranges, which ascend. -/
def covers : Ranges → Nat → Bool
  | [], _ => false
  | (first, last) :: rest, n => if n < first then false else n ≤ last || covers rest n

end Ranges

end EvalOrder.Text
