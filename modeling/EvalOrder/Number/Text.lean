import EvalOrder.Number.Shortest

/-!
# The text of floating-point numbers

A floating-point number is written with the fewest digits that read back, as `repr` does. It is positional while at most
three zeros stand between the point and the first digit, or at most sixteen digits before the point, and then keeps a
digit after the point; otherwise it has an exponent, with a sign and at least two digits.
-/

namespace EvalOrder.Number

/-- How a decimal is laid out. -/
structure Format where
  /-- Positional while at most this many zeros stand between the point and the first digit. -/
  zeros : Nat
  /-- Positional while at most this many digits stand before the point. -/
  digits : Nat
  /-- The least number of digits of an exponent. -/
  exponentDigits : Nat
  infinity : String
  notANumber : String

/-- The format of this program's messages. -/
def Format.standard : Format := ⟨3, 16, 2, "inf", "nan"⟩

/-- The decimal digits of a natural number, at least `width` of them. -/
def padded (width n : Nat) : List Char :=
  let ds := Nat.toDigits 10 n
  List.replicate (width - ds.length) '0' ++ ds

/-- A decimal in a format. -/
def Decimal.text (f : Format) (d : Decimal) : List Char :=
  let ds := (Nat.toDigits 10 d.digits).reverse.dropWhile (· = '0') |>.reverse
  let count := (Nat.toDigits 10 d.digits).length
  -- the number is 0.ds times 10 ^ point
  let point := d.exponent + count
  if -(f.zeros : Int) ≤ point ∧ point ≤ f.digits then
    if point ≤ 0 then '0' :: '.' :: List.replicate (-point).toNat '0' ++ ds
    else
      let whole := ds.take point.toNat
      let part := ds.drop point.toNat
      whole ++ List.replicate (point.toNat - whole.length) '0' ++ '.' ::
        (if part.isEmpty then ['0'] else part)
  else
    let exponent := point - 1
    let sign := if exponent < 0 then '-' else '+'
    let mantissa := match ds with
      | [] => ['0']
      | [c] => [c]
      | c :: part => c :: '.' :: part
    mantissa ++ 'e' :: sign :: padded f.exponentDigits exponent.natAbs

/-- The number of fractions of a double, which is the leading bit of its mantissa. -/
def hidden : Nat := Nat.pow 2 52

/-- The exponent and the fraction bits of a double. -/
def fieldsOf (x : Float) : Nat × Nat :=
  let bits := x.toBits.toNat
  (bits / hidden % 2048, bits % hidden)

/-- The positive finite number with the exponent and fraction bits of a double. -/
def Binary.ofFields (exponent fraction : Nat) : Binary :=
  if exponent = 0 then ⟨fraction, -1074, false⟩
  else ⟨hidden + fraction, (exponent : Int) - 1075, fraction = 0 ∧ 1 < exponent⟩

/-- The text of a double in a format. -/
def textOf (f : Format) (x : Float) : String :=
  let sign := if x.toBits.toNat / hidden < 2048 then "" else "-"
  let (exponent, fraction) := fieldsOf x
  if exponent = 2047 then
    if fraction = 0 then sign ++ f.infinity else f.notANumber
  else if exponent = 0 ∧ fraction = 0 then sign ++ "0.0"
  else sign ++ String.ofList ((Binary.ofFields exponent fraction).shortest.text f)

end EvalOrder.Number
