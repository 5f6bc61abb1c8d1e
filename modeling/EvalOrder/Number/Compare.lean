import EvalOrder.Number.Text

/-!
# Comparing doubles with integers

A finite double is an integer times a power of two, so it is compared with an integer exactly, by bringing both to
integers; nothing is rounded. `compareInt?` is what `<` and `==` of the two go by; a double that is no number has no
answer.
-/

namespace EvalOrder.Number

/-- How `m * 2 ^ e` compares with `n`. -/
def compareScaled (m e n : Int) : Ordering :=
  compare (m * (Nat.pow 2 e.toNat : Nat)) (n * (Nat.pow 2 (-e).toNat : Nat))

/-- How a double compares with an integer, unless it is no number. -/
def compareInt? (x : Float) (n : Int) : Option Ordering :=
  let negative : Bool := 2048 ≤ x.toBits.toNat / hidden
  let (exponent, fraction) := fieldsOf x
  if exponent = 2047 then
    if fraction ≠ 0 then none else some (if negative then .lt else .gt)
  else
    let b := Binary.ofFields exponent fraction
    some (compareScaled (if negative then -(b.mantissa : Int) else b.mantissa) b.exponent n)

end EvalOrder.Number
