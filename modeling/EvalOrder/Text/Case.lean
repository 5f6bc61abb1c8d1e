import EvalOrder.Text.CasedTable
import EvalOrder.Text.LowerTable
import EvalOrder.Text.Points
import EvalOrder.Text.UpperTable

/-!
# Upper and lower case

Full upper-casing and lower-casing of a text (`upper`, `lower`): each character is replaced by its other case, which may
be several characters (`ß` becomes `SS`), and a character without one is kept. A capital sigma at the end of a word,
after a letter and not before one, has a lower case of its own.
-/

namespace EvalOrder.Text

/-- The run that holds `n`, if one does, applied to it. -/
def mapByRun (runs : List (Nat × Nat × Nat × Nat × Nat)) (n : Nat) : Option Nat :=
  runs.findSome? fun (first, last, step, up, down) =>
    if first ≤ n ∧ n ≤ last ∧ (n - first) % step = 0 then some (n + up - down) else none

/-- The upper case of one code point. -/
def upperPoint (n : Nat) : List Nat :=
  match upperSequences.lookup n with
  | some ns => ns
  | none => [(mapByRun upperRuns n).getD n]

/-- The lower case of one code point. -/
def lowerPoint (n : Nat) : List Nat :=
  if n = 0x130 then [0x69, 0x307] else [(mapByRun lowerRuns n).getD n]

namespace Points

/-- The upper case of a text. -/
def upper (ps : Points) : Points := ps.flatMap upperPoint

/-- The first code point that is not passed over in the search for a letter is one. -/
def meetsLetter (ps : Points) : Bool :=
  (ps.dropWhile caseIgnorableRanges.covers).head?.any casedRanges.covers

/-- The lower case of a text that comes after `before`, which is given backwards. -/
def lowerAfter (before : Points) : Points → Points
  | [] => []
  | n :: ns =>
    let ends := n = 0x3A3 && meetsLetter before && !meetsLetter ns
    (if ends then [0x3C2] else lowerPoint n) ++ lowerAfter (n :: before) ns

/-- The lower case of a text. -/
def lower (ps : Points) : Points := lowerAfter [] ps

end Points

end EvalOrder.Text
