/-!
# Digits

The value of a run of digits in a base up to 16.
-/

namespace EvalOrder.Number

def isHexDigit (c : Char) : Bool :=
  c.isDigit || ('a' ≤ c && c ≤ 'f') || ('A' ≤ c && c ≤ 'F')

/-- The value of a digit. -/
def digitValue (c : Char) : Nat :=
  if c.isDigit then c.toNat - '0'.toNat
  else if c.toNat < 'a'.toNat then c.toNat - 'A'.toNat + 10
  else c.toNat - 'a'.toNat + 10

/-- The value of a run of digits in a base, after digits that are worth `acc`. -/
def valueIn (base acc : Nat) (ds : List Char) : Nat :=
  ds.foldl (fun n c => base * n + digitValue c) acc

end EvalOrder.Number
