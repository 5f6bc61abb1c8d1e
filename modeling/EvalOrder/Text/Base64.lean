import EvalOrder.Text.Points

/-!
# Bytes in base 64

Four characters of an alphabet of 64 write three bytes. Other characters do not matter, except that one or two equals
signs close a group of four which is not full, and with it the text. `bytesOfBase64?` is `decodebytes`; what is wrong
with a text is left out.
-/

namespace EvalOrder.Text

/-- The six bits that a character of the alphabet stands for. -/
def sixBits? (n : Nat) : Option Nat :=
  if 0x41 ≤ n ∧ n ≤ 0x5A then some (n - 0x41)
  else if 0x61 ≤ n ∧ n ≤ 0x7A then some (n - 0x61 + 26)
  else if 0x30 ≤ n ∧ n ≤ 0x39 then some (n - 0x30 + 52)
  else if n = 0x2B then some 62
  else if n = 0x2F then some 63
  else none

/-- The characters of the alphabet before the group of four is closed or the text ends, given the number of them
and of equals signs so far; `false` when it ends inside a group. -/
def alphabetPart : (count pads : Nat) → Points → List Nat × Bool
  | count, _, [] => ([], count % 4 = 0)
  | count, pads, n :: ns =>
    if n = 0x3D then
      if 2 ≤ count % 4 ∧ 4 ≤ count % 4 + pads + 1 then ([], true)
      else alphabetPart count (if 2 ≤ count % 4 then pads + 1 else pads) ns
    else match sixBits? n with
      | none => alphabetPart count pads ns
      | some v =>
        let (vs, closed) := alphabetPart (count + 1) 0 ns
        (v :: vs, closed)

/-- The bytes of groups of six bits. -/
def bytesOf : List Nat → List UInt8
  | a :: b :: c :: d :: vs =>
    UInt8.ofNat (a * 4 + b / 16) :: UInt8.ofNat (b * 16 + c / 4) :: UInt8.ofNat (c * 64 + d) :: bytesOf vs
  | [a, b, c] => [UInt8.ofNat (a * 4 + b / 16), UInt8.ofNat (b * 16 + c / 4)]
  | [a, b] => [UInt8.ofNat (a * 4 + b / 16)]
  | _ => []

/-- The bytes that a text of ASCII characters writes. -/
def bytesOfBase64? (ps : Points) : Option (List UInt8) :=
  if ps.all (· < 128) then
    let (vs, closed) := alphabetPart 0 0 ps
    if closed then some (bytesOf vs) else none
  else none

end EvalOrder.Text
