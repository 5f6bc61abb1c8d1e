import EvalOrder.Number.Digits

/-!
# Reading decimal numbers

The double nearest to a decimal numeral: digits, at most one point among them, and an exponent after `e` or `E`, with
signs before the numeral and the exponent.

Numbers beyond the range of doubles are infinite, and numbers too small for it are zero; this is known from the place of
the first digit that is not zero, before any power is computed.
-/

namespace EvalOrder.Number

/-- A sign and what follows it: negative or not. -/
def signed : List Char → Bool × List Char
  | '-' :: cs => (true, cs)
  | '+' :: cs => (false, cs)
  | cs => (false, cs)

/-- The double nearest to a numeral. -/
def nearestFloat (cs : List Char) : Float :=
  let (negative, cs) := signed cs
  let whole := cs.takeWhile Char.isDigit
  let rest := cs.dropWhile Char.isDigit
  let (part, rest) := match rest with
    | '.' :: more => (more.takeWhile Char.isDigit, more.dropWhile Char.isDigit)
    | _ => ([], rest)
  let exponent : Int := match rest with
    | [] => 0
    | _ :: e =>
      let (down, ds) := signed e
      let n := valueIn 10 0 (ds.takeWhile Char.isDigit)
      if down then -(n : Int) else n
  let digits := (whole ++ part).dropWhile (· = '0')
  let scale := exponent - part.length
  let magnitude := digits.length + scale
  let x :=
    if digits.isEmpty || magnitude < -400 then 0.0
    else if 400 < magnitude then 1.0 / 0.0
    else Float.ofScientific (valueIn 10 0 digits) (scale < 0) scale.natAbs
  if negative then -x else x

end EvalOrder.Number
