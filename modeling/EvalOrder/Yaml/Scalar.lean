import EvalOrder.Yaml.Fault
import EvalOrder.Yaml.Input

/-!
# The text of scalars

A scalar is written plain (`scan_plain`), between single or double quotes (`scan_flow_scalar`), or as an indented block
after `|` or `>` (`scan_block_scalar`). Each form has its own rules for escapes and for line ends, of which a single one
inside a scalar is a space, except in a block after `|`. An escape in a double-quoted scalar may write any code point.

Every function here takes the number of steps it may make, of which each passes a character or ends the scalar, so the
length of the input and one more is enough.
-/

namespace EvalOrder.Yaml

open Text (Points)

/-! ## Line ends inside scalars -/

/-- How a line end and the empty lines after it read: a single line feed is a space. -/
def foldBreaks (first : List Char) (more : List Char) : List Char :=
  if first ≠ ['\n'] then first ++ more
  else if more = [] then [' ']
  else more

/-! ## Quoted scalars -/

/-- The code point of a number that an escape gives. -/
def pointOf (n : Nat) : Except Failure Nat :=
  if n < 0x110000 then .ok n
  else if n < 0x80000000 then .error (.fault .codePoint)
  else .error (.fault .codeWord)

/-- The character that an escape of one character stands for. -/
def escaped? : Char → Option Char
  | '0' => some '\x00'
  | 'a' => some '\x07'
  | 'b' => some '\x08'
  | 't' => some '\t'
  | '\t' => some '\t'
  | 'n' => some '\n'
  | 'v' => some '\x0b'
  | 'f' => some '\x0c'
  | 'r' => some '\r'
  | 'e' => some '\x1b'
  | ' ' => some ' '
  | '"' => some '"'
  | '\\' => some '\\'
  | '/' => some '/'
  | 'N' => some '\u0085'
  | '_' => some '\u00a0'
  | 'L' => some '\u2028'
  | 'P' => some '\u2029'
  | _ => none

/-- The number of hexadecimal digits after an escape by code point. -/
def codeLength? : Char → Option Nat
  | 'x' => some 2
  | 'u' => some 4
  | 'U' => some 8
  | _ => none

def doubleQuote : Char := '\x22'

def singleQuote : Char := '\x27'

/-- Pass empty lines inside a quoted scalar, where no document may begin or end. -/
def quotedBreaks : Nat → Input → Except Failure (List Char × Input)
  | 0, _ => .error .malformed
  | steps + 1, s => do
    s.reachMarker
    if s.atSomeMarker then throw .malformed
    else
      let s := s.skip fun c => c = ' ' || c = '\t'
      if isBreak s.peek then do
        let (c, s) := s.lineBreak
        let (cs, s) ← quotedBreaks steps s
        return (c ++ cs, s)
      else return ([], s)

/-- Pass blanks and line ends inside a quoted scalar. -/
def quotedGap (s : Input) : Except Failure (List Char × Input) :=
  let blanks := s.run fun c => c = ' ' || c = '\t'
  let s := s.forward blanks.length
  if s.peek = endMark then .error s.refusal
  else if isBreak s.peek then do
    let (first, s) := s.lineBreak
    let (more, s) ← quotedBreaks (s.rest.length + 1) s
    return (foldBreaks first more, s)
  else return (blanks, s)

/-- The escape after a backslash. -/
def escape (s : Input) : Except Failure (Points × Input) :=
  match escaped? s.peek, codeLength? s.peek with
  | some c, _ => .ok ([c.toNat], s.next)
  | none, some n =>
    let digits := s.next.rest.take n
    if digits.length = n ∧ digits.all Number.isHexDigit then do
      let point ← pointOf (Number.valueIn 16 0 digits)
      return ([point], s.next.forward n)
    else .error (s.next.forward (digits.takeWhile Number.isHexDigit).length).refusal
  | none, none =>
    if isBreak s.peek then do
      let (_, s) := s.lineBreak
      let (breaks, s) ← quotedBreaks (s.rest.length + 1) s
      return (Points.ofChars breaks, s)
    else .error s.refusal

/-- The rest of a scalar up to its closing `quote`, which is passed. -/
def quotedScalar (quote : Char) : Nat → Input → Except Failure (Points × Input)
  | 0, _ => .error .malformed
  | steps + 1, s => do
    let c := s.peek
    if c = quote then
      if quote = singleQuote ∧ s.peekAt 1 = singleQuote then
        let (ps, s) ← quotedScalar quote steps (s.forward 2)
        return (singleQuote.toNat :: ps, s)
      else return ([], s.next)
    else if isGap c then
      let (gap, s) ← quotedGap s
      let (ps, s) ← quotedScalar quote steps s
      return (Points.ofChars gap ++ ps, s)
    else if c = '\\' ∧ quote = doubleQuote then
      let (e, s) ← escape s.next
      let (ps, s) ← quotedScalar quote steps s
      return (e ++ ps, s)
    else
      let (ps, s) ← quotedScalar quote steps s.next
      return (c.toNat :: ps, s)

/-! ## Plain scalars -/

/-- A character that sets apart the parts of a flow collection. -/
def isFlowMark (c : Char) : Bool := c = ',' || c = '[' || c = ']' || c = '{' || c = '}'

/-- The next word of a plain scalar: up to a gap, or a colon before a gap, or, in a flow collection, a mark. -/
def plainWord (inFlow : Bool) : List Char → List Char
  | [] => []
  | c :: cs =>
    let follow := cs.headD endMark
    if isGap c || (c = ':' && (isGap follow || (inFlow && isFlowMark follow))) ||
        (inFlow && (isFlowMark c || c = '?')) then []
    else c :: plainWord inFlow cs

/-- Pass empty lines after a line of a plain scalar; `none` when a document begins or ends there. -/
def plainBreaks : Nat → Input → Except Failure (Option (List Char) × Input)
  | 0, s => .ok (some [], s)
  | steps + 1, s => do
    let s := s.skip (· = ' ')
    if isBreak s.peek then
      let (c, s) := s.lineBreak
      s.reachMarker
      if s.atSomeMarker then return (none, s)
      else
        let (more, s) ← plainBreaks steps s
        return (more.map (c ++ ·), s)
    else return (some [], s)

/-- Pass the gap after a word of a plain scalar. The gap reads as what is given, which is nothing when the scalar
cannot go on; `true` when a line has ended. -/
def plainGap (s : Input) : Except Failure (List Char × Bool × Input) := do
  let blanks := s.run (· = ' ')
  let s := s.forward blanks.length
  if isBreak s.peek then
    let (first, s) := s.lineBreak
    s.reachMarker
    if s.atSomeMarker then return ([], true, s)
    else
      let (more, s) ← plainBreaks (s.rest.length + 1) s
      return ((more.map (foldBreaks first)).getD [], true, s)
  else return (blanks, false, s)

/-- A plain scalar at an indentation of at least `indent`; `true` when a line has ended after its last word. -/
def plainScalar (inFlow : Bool) (indent : Int) : Nat → Input → Except Failure (List Char × Bool × Input)
  | 0, s => .ok ([], false, s)
  | steps + 1, s => do
    let word := plainWord inFlow s.rest
    -- whether a colon ends the word is seen at the character after it
    s.reach (if s.peekAt word.length = ':' then word.length + 1 else word.length)
    if s.peek = '#' || word.isEmpty then return ([], false, s)
    else
      let (gap, ended, s) ← plainGap (s.forward word.length)
      if gap.isEmpty || s.peek = '#' || (!inFlow && (s.column : Int) < indent) then return (word, ended, s)
      else
        let (more, ended', s) ← plainScalar inFlow indent steps s
        if more.isEmpty then return (word, ended, s) else return (word ++ gap ++ more, ended', s)

/-! ## Block scalars -/

/-- Which line ends at the end of a block are kept: none, one or all. -/
inductive Chomping where
  | strip
  | clip
  | keep
  deriving DecidableEq, Repr

def chomping? : Char → Option Chomping
  | '+' => some .keep
  | '-' => some .strip
  | _ => none

/-- The value of a digit from 1 to 9 that gives the indentation of a block. -/
def increment? (c : Char) : Option Nat :=
  if '1' ≤ c ∧ c ≤ '9' then some (c.toNat - '0'.toNat) else none

/-- The header of a block: how it ends and how deep it is indented. -/
def blockHeader (s : Input) : Except Failure (Chomping × Option Nat × Input) := do
  let (chomping, increment, s) :=
    match chomping? s.peek with
    | some c => match increment? s.next.peek with
      | some n => (c, some n, s.forward 2)
      | none => (c, none, s.next)
    | none => match increment? s.peek with
      | some n => match chomping? s.next.peek with
        | some c => (c, some n, s.forward 2)
        | none => (.clip, some n, s.next)
      | none => (.clip, none, s)
  if !isSpaceOrEnd s.peek then throw s.refusal
  else
    let s := s.skip (· = ' ')
    let s := if s.peek = '#' then s.skip (!isBreakOrEnd ·) else s
    if isBreakOrEnd s.peek then return (chomping, increment, s.lineBreak.2) else throw s.refusal

/-- Pass the empty lines at the beginning of a block, and find how deep its first line is indented. -/
def blockIndentation (deepest : Nat) : Nat → Input → List Char × Nat × Input
  | 0, s => ([], deepest, s)
  | steps + 1, s =>
    if s.peek = ' ' then blockIndentation (max deepest s.next.column) steps s.next
    else if isBreak s.peek then
      let (c, s) := s.lineBreak
      let (cs, deepest, s) := blockIndentation deepest steps s
      (c ++ cs, deepest, s)
    else ([], deepest, s)

/-- Pass spaces up to a column. -/
def spacesTo (column : Nat) (s : Input) : Input :=
  s.forward (min (column - s.column) (s.run (· = ' ')).length)

/-- Pass the empty lines inside a block, and the indentation of the line after them. -/
def blockBreaks (indent : Nat) : Nat → Input → List Char × Input
  | 0, s => ([], s)
  | steps + 1, s =>
    let s := spacesTo indent s
    if isBreak s.peek then
      let (c, s) := s.lineBreak
      let (cs, s) := blockBreaks indent steps s
      (c ++ cs, s)
    else ([], s)

/-- The lines of a block, without its last line end, which is given apart with the empty lines after it. -/
def blockLines (folded : Bool) (indent : Nat) :
    Nat → List Char → Input → List Char × List Char × List Char × Input
  | 0, breaks, s => ([], [], breaks, s)
  | steps + 1, breaks, s =>
    if s.column = indent && s.peek ≠ endMark then
      let line := s.run (!isBreakOrEnd ·)
      let joins := !(line.head? = some ' ' || line.head? = some '\t')
      let (last, s) := (s.forward line.length).lineBreak
      let (more, s) := blockBreaks indent (s.rest.length + 1) s
      if s.column = indent && s.peek ≠ endMark then
        let joins := folded && last = ['\n'] && joins && !(s.peek = ' ' || s.peek = '\t')
        let join := if joins then (if more = [] then [' '] else []) else last
        let (rest, last, after, s) := blockLines folded indent steps more s
        (breaks ++ line ++ join ++ rest, last, after, s)
      else (breaks ++ line, last, more, s)
    else ([], [], breaks, s)

/-- A block after its `|` or `>`, inside a collection that is indented by `outer`. -/
def blockScalar (folded : Bool) (outer : Int) (s : Input) : Except Failure (List Char × Input) := do
  let (chomping, increment, s) ← blockHeader s
  let least := max 1 (outer + 1).toNat
  let steps := s.rest.length + 1
  let (breaks, indent, s) :=
    match increment with
    | some n =>
      let indent := least + n - 1
      let (breaks, s) := blockBreaks indent steps s
      (breaks, indent, s)
    | none =>
      let (breaks, deepest, s) := blockIndentation 0 steps s
      (breaks, max least deepest, s)
  let (lines, last, after, s) := blockLines folded indent steps breaks s
  let ending := match chomping with
    | .strip => []
    | .clip => last
    | .keep => last ++ after
  return (lines ++ ending, s)

end EvalOrder.Yaml
