/-!
# Characters from bytes

A character is written as one to four bytes. The first tells how many follow, and each of those lies between bounds,
which are closer for the first of them, so that no character is written in two ways. Bytes may come a piece at a time:
what is known of a character that a piece breaks off is kept for the next piece. A byte that is out of bounds is
refused, and so is the last byte of half of a surrogate pair, which is no character. Left out is where the refused byte
stands.
-/

namespace EvalOrder.Text

/-- What is known of a character of which not all bytes are there: its bits so far, the number of bytes that are
still to come, and the bounds of the next. -/
structure Pending where
  bits : Nat := 0
  owed : Nat := 0
  least : Nat := 0x80
  greatest : Nat := 0xBF
  deriving DecidableEq, Repr

namespace Pending

/-- What the first byte of a character tells. -/
def ofFirst (b : Nat) : Option Pending :=
  if b < 0x80 then some { bits := b }
  else if 0xC2 ≤ b ∧ b ≤ 0xDF then some { bits := b - 0xC0, owed := 1 }
  else if 0xE0 ≤ b ∧ b ≤ 0xEF then
    some { bits := b - 0xE0, owed := 2, least := if b = 0xE0 then 0xA0 else 0x80 }
  else if 0xF0 ≤ b ∧ b ≤ 0xF4 then
    some { bits := b - 0xF0, owed := 3, least := if b = 0xF0 then 0x90 else 0x80,
           greatest := if b = 0xF4 then 0x8F else 0xBF }
  else none

/-- What is known after one more byte. -/
def add (p : Pending) (b : Nat) : Option Pending :=
  if p.owed = 0 then ofFirst b
  else if p.least ≤ b ∧ b ≤ p.greatest then
    let q : Pending := { bits := p.bits * 64 + (b - 0x80), owed := p.owed - 1 }
    if q.owed = 0 ∧ ¬q.bits.isValidChar then none else some q
  else none

/-- The characters that more bytes complete, and what is known of the one after them. -/
def feed : Pending → List UInt8 → Option (List Char × Pending)
  | p, [] => some ([], p)
  | p, b :: bs =>
    match p.add b.toNat with
    | none => none
    | some q =>
      if q.owed = 0 then (feed {} bs).map fun (cs, r) => (Char.ofNat q.bits :: cs, r)
      else feed q bs

end Pending

end EvalOrder.Text
