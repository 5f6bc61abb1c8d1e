/-!
# Shortest decimals

The decimal that stands for a binary floating-point number has the fewest digits among those that read back as the
number, and of these it is the one nearest to it. It is found on decimal grids of 1, 2, … digits: on each grid the two
neighbours of the number are tested, and the first grid that has a hit is taken.

A finite number is `mantissa * 2 ^ exponent`. The numbers that read back as it lie between the two midpoints to its
neighbours, which are themselves included when the mantissa is even. In units of a quarter of `2 ^ exponent` all of
these are natural numbers, so every test is exact.
-/

namespace EvalOrder.Number

/-- A positive number `mantissa * 2 ^ exponent`; `atPower` marks the first mantissa of a binary exponent, below
which numbers lie twice as dense. -/
structure Binary where
  mantissa : Nat
  exponent : Int
  atPower : Bool
  deriving DecidableEq, Repr

/-- A positive number `digits * 10 ^ exponent`. -/
structure Decimal where
  digits : Nat
  exponent : Int
  deriving DecidableEq, Repr

namespace Binary

/-- The number in quarters of its unit. -/
def quarters (b : Binary) : Nat := 4 * b.mantissa

/-- The lower midpoint, in quarters. -/
def lower (b : Binary) : Nat := b.quarters - if b.atPower then 1 else 2

/-- The upper midpoint, in quarters. -/
def upper (b : Binary) : Nat := b.quarters + 2

/-- `x` quarters of the number's unit and `c * 10 ^ e`, brought to a common unit. -/
def common (b : Binary) (x c : Nat) (e : Int) : Nat × Nat :=
  let q := b.exponent - 2
  (x * Nat.pow 2 q.toNat * Nat.pow 10 (-e).toNat, c * Nat.pow 10 e.toNat * Nat.pow 2 (-q).toNat)

/-- `c * 10 ^ e` reads back as the number. -/
def readsBack (b : Binary) (c : Nat) (e : Int) : Bool :=
  let (low, value) := b.common b.lower c e
  let (high, value') := b.common b.upper c e
  if b.mantissa % 2 = 0 then low ≤ value && value' ≤ high else low < value && value' < high

/-- The number rounded down on the grid of step `10 ^ e`; its other neighbour is one more. -/
def below (b : Binary) (e : Int) : Nat :=
  let (value, step) := b.common b.quarters 1 e
  value / step

/-- The upper neighbour on the grid is nearer, or as near and the lower one is odd. -/
def nearerAbove (b : Binary) (e : Int) : Bool :=
  let c := b.below e
  let (value, step) := b.common b.quarters 1 e
  let low := value - c * step
  let high := (c + 1) * step - value
  high < low || (high = low && c % 2 = 1)

/-- The least `k` in the range of double precision for which the number is below `10 ^ k`. -/
def magnitude (b : Binary) : Int :=
  let fits (k : Int) : Bool :=
    let (value, bound) := b.common b.quarters 1 k
    value < bound
  match (List.range 640).find? fun (i : Nat) => fits ((i : Int) - 330) with
  | some i => (i : Int) - 330
  | none => 310

/-- A decimal of `n` digits that reads back, the nearer one of two. -/
def atDigits (b : Binary) (n : Nat) : Option Decimal :=
  let e := b.magnitude - n
  let c := b.below e
  match b.readsBack c e, b.readsBack (c + 1) e with
  | true, true => some ⟨if b.nearerAbove e then c + 1 else c, e⟩
  | true, false => some ⟨c, e⟩
  | false, true => some ⟨c + 1, e⟩
  | false, false => none

/-- The shortest decimal that reads back. -/
def shortest (b : Binary) : Decimal :=
  match ((List.range 17).map (· + 1)).findSome? b.atDigits with
  | some d => d
  | none => ⟨b.below (b.magnitude - 17), b.magnitude - 17⟩

end Binary

end EvalOrder.Number
