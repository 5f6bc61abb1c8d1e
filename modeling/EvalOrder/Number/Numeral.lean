import EvalOrder.Number.Read
import EvalOrder.Text.Class
import EvalOrder.Text.Points

/-!
# Numerals in a text

What `int` and `float` make of a text (`integerOf`, `floatOf?`). It may have blanks around the numeral, and its digits
may be those of any script. An integer is read in a base, whose mark, as in `0x`, may stand before the digits; outside
the bases 2, 8 and 16 it may not have more than 4300 digits. A decimal number may have a point and an exponent, and may
be infinite or no number.

Left out are underscores between digits, which the callers have taken out, and bases other than 2, 8, 10 and 16.
-/

namespace EvalOrder.Number

open Text

/-- A code point beyond ASCII as the ASCII digit or the space that it stands for. -/
def plainPoint (n : Nat) : Nat :=
  if n < 128 then n
  else if blankRanges.covers n then 0x20
  else match digitValue? n with
    | some d => 0x30 + d
    | none => n

/-- A blank of ASCII. -/
def isSpace (n : Nat) : Bool := n = 0x20 || (0x9 ≤ n && n ≤ 0xD)

/-- A text without the spaces around it. -/
def trimmed (ps : Points) : Points :=
  ((ps.dropWhile isSpace).reverse.dropWhile isSpace).reverse

/-! ## Integers -/

/-- The value of a digit in a base. -/
def digitIn? (base n : Nat) : Option Nat :=
  let d? :=
    if 0x30 ≤ n ∧ n ≤ 0x39 then some (n - 0x30)
    else if 0x61 ≤ n ∧ n ≤ 0x7A then some (n - 0x61 + 10)
    else if 0x41 ≤ n ∧ n ≤ 0x5A then some (n - 0x41 + 10)
    else none
  d?.filter (· < base)

/-- The letters that mark a base, after a zero. -/
def marksOf (base : Nat) : Points :=
  match base with
  | 2 => Points.ofString "bB"
  | 8 => Points.ofString "oO"
  | 16 => Points.ofString "xX"
  | _ => []

/-- Why a text is no integer. -/
inductive IntegerFault where
  | malformed
  | tooLong (digits : Nat)
  deriving DecidableEq, Repr

/-- The greatest number of digits of a numeral that is not in a base of bits. -/
def digitLimit : Nat := 4300

/-- What is said when a numeral has too many digits to be read or written. -/
def tooLong (detail : String) : String :=
  s!"Exceeds the limit ({digitLimit} digits) for integer string conversion{detail}; " ++
    "use sys.set_int_max_str_digits() to increase the limit"

def tooLongToWrite : String := tooLong ""

/-- An integer has few enough digits to be written. -/
def isWritable (n : Int) : Bool := n.natAbs < Nat.pow 10 digitLimit

/-- A sign in front of code points: negative or not, and the rest. -/
def signOf : Points → Bool × Points
  | 0x2B :: ps => (false, ps)
  | 0x2D :: ps => (true, ps)
  | ps => (false, ps)

/-- The integer that a text writes in a base. -/
def integerOf (base : Nat) (ps : Points) : Except IntegerFault Int :=
  let (negative, ps) := signOf ((ps.map plainPoint).dropWhile isSpace)
  let ps := match ps with
    | 0x30 :: mark :: more => if (marksOf base).contains mark then more else ps
    | _ => ps
  let digits := ps.takeWhile fun n => (digitIn? base n).isSome
  if digits.isEmpty then .error .malformed
  else if (marksOf base).isEmpty && digitLimit < digits.length then .error (.tooLong digits.length)
  else if (ps.drop digits.length).all isSpace then
    let n := (digits.filterMap (digitIn? base)).foldl (fun n d => base * n + d) 0
    .ok (if negative then -(n : Int) else n)
  else .error .malformed

/-! ## Decimal numbers -/

/-- A code point of a decimal digit. -/
def isDigitPoint (n : Nat) : Bool := 0x30 ≤ n && n ≤ 0x39

/-- An exponent, or nothing. -/
def isExponentOrEnd : Points → Bool
  | [] => true
  | 0x65 :: ps =>
    let ds := (signOf ps).2
    !ds.isEmpty && ds.all isDigitPoint
  | _ => false

/-- A decimal numeral without a sign. -/
def isDecimal (ps : Points) : Bool :=
  let whole := ps.takeWhile isDigitPoint
  match ps.drop whole.length with
  | 0x2E :: rest =>
    let part := rest.takeWhile isDigitPoint
    !(whole.isEmpty && part.isEmpty) && isExponentOrEnd (rest.drop part.length)
  | rest => !whole.isEmpty && isExponentOrEnd rest

/-- The double nearest to the number that a lower-case text writes. -/
def floatOf? (ps : Points) : Option Float :=
  let ps := trimmed (ps.map plainPoint)
  let (negative, unsigned) := signOf ps
  let sign (x : Float) : Float := if negative then -x else x
  if unsigned = Points.ofString "inf" ∨ unsigned = Points.ofString "infinity" then some (sign (1.0 / 0.0))
  else if unsigned = Points.ofString "nan" then some (0.0 / 0.0)
  else if isDecimal unsigned then some (sign (nearestFloat (unsigned.map Char.ofNat)))
  else none

end EvalOrder.Number
