import EvalOrder.Yaml.Fault

/-!
# The input of a document reader

Model of the `Reader` of the YAML library. What is left of a text, with the line and column it has come to, and the
classes of characters that the structure of a document depends on. Reading at the end of the text gives the null
character, which no text may hold.

A text comes in portions, and may turn out to be no text, or to hold a character that no document may hold, in a later
one. Then the input ends before that portion, and going on to it fails; what stands before it is read first.
-/

namespace EvalOrder.Yaml

/-- The character that stands for the end of the text. -/
def endMark : Char := '\x00'

/-- A byte order mark, which takes up no column. -/
def byteOrderMark : Char := '\uFEFF'

/-- A character that ends a line. -/
def isBreak (c : Char) : Bool :=
  c = '\n' || c = '\r' || c = '\u0085' || c = '\u2028' || c = '\u2029'

/-- A line end or the end of the text. -/
def isBreakOrEnd (c : Char) : Bool := isBreak c || c = endMark

/-- A space, a line end or the end of the text. -/
def isSpaceOrEnd (c : Char) : Bool := isBreakOrEnd c || c = ' '

/-- A space, a tab, a line end or the end of the text. -/
def isGap (c : Char) : Bool := isSpaceOrEnd c || c = '\t'

/-- A character that a document may hold. -/
def isAllowed (c : Char) : Bool :=
  let n := c.toNat
  n = 0x9 || n = 0xA || n = 0xD || (0x20 ≤ n && n ≤ 0x7E) || n = 0x85 || (0xA0 ≤ n && n ≤ 0xFFFD) ||
    0x10000 ≤ n

/-- A letter, a digit, a hyphen or an underscore: the characters of names of anchors and handles. -/
def isWordChar (c : Char) : Bool := c.isAlphanum || c = '-' || c = '_'

/-- The characters of a text that can be read and, when these are not all, why there are no more. -/
structure Supply where
  chars : List Char
  beyond : Option Failure := none
  deriving DecidableEq, Repr

namespace Supply

/-- The number of characters in a portion. -/
def portionSize : Nat := 4096

/-- Portions as they are looked at: the first two together. -/
def looks : List (List Char) × Bool → List (List Char)
  | (first :: second :: more, _) => (first ++ second) :: more
  | ([first], true) => [first]
  | (_, _) => []

/-- What portions supply; the flag tells that there is none that cannot be read. A portion that holds a character that
is not allowed supplies nothing. -/
def ofPortions (ps : List (List Char) × Bool) : Supply :=
  let good := (looks ps).takeWhile (·.all isAllowed)
  { chars := good.flatten
    beyond :=
      if good.length < (looks ps).length then some .malformed
      else if ps.2 then none else some .undecodable }

end Supply

/-- The rest of a text and where it begins: index, line and column, each from 0; and why it ends there, if there is
more. -/
structure Input where
  rest : List Char
  index : Nat := 0
  line : Nat := 0
  column : Nat := 0
  beyond : Option Failure := none

namespace Input

/-- Go on to the character `n` places on, or to the end of the text. -/
def reach (s : Input) (n : Nat) : Except Failure Unit :=
  match s.beyond with
  | none => .ok ()
  | some e => if n < s.rest.length then .ok () else .error e

/-- Why the text cannot go on as it does here. -/
def refusal (s : Input) : Failure :=
  match s.reach 0 with
  | .ok () => .malformed
  | .error e => e

/-- The character `n` places on. -/
def peekAt (s : Input) (n : Nat) : Char := s.rest.getD n endMark

/-- The next character. -/
def peek (s : Input) : Char := s.peekAt 0

/-- The input after its next character. -/
def next (s : Input) : Input :=
  match s.rest with
  | [] => s
  | c :: cs =>
    if isBreak c && !(c = '\r' && cs.head? = some '\n') then
      { s with rest := cs, index := s.index + 1, line := s.line + 1, column := 0 }
    else { s with rest := cs, index := s.index + 1, column := if c = byteOrderMark then s.column else s.column + 1 }

/-- The input after its next `n` characters. -/
def forward (s : Input) : Nat → Input
  | 0 => s
  | n + 1 => s.next.forward n

/-- The longest beginning of a class. -/
def run (s : Input) (p : Char → Bool) : List Char := s.rest.takeWhile p

/-- The input after the longest beginning of a class. -/
def skip (s : Input) (p : Char → Bool) : Input := s.forward (s.run p).length

/-- Pass a line end, if one is next; most of them count as a line feed. -/
def lineBreak (s : Input) : List Char × Input :=
  let c := s.peek
  if c = '\r' && s.peekAt 1 = '\n' then (['\n'], s.forward 2)
  else if c = '\u2028' || c = '\u2029' then ([c], s.next)
  else if isBreak c then (['\n'], s.next)
  else ([], s)

/-- A document marker, three of `c` and then a gap, is next. -/
def atMarker (s : Input) (c : Char) : Bool :=
  s.peekAt 0 = c && s.peekAt 1 = c && s.peekAt 2 = c && isGap (s.peekAt 3)

/-- Go on as far as it takes to see whether a document marker is next. -/
def reachMarker (s : Input) : Except Failure Unit :=
  let three := s.rest.take 3
  s.reach (if three = ['-', '-', '-'] ∨ three = ['.', '.', '.'] then 3 else 2)

/-- A document marker of either sort is next. -/
def atSomeMarker (s : Input) : Bool := s.atMarker '-' || s.atMarker '.'

end Input

end EvalOrder.Yaml
