import EvalOrder.Table
import EvalOrder.Yaml.Scalar

/-!
# The tokens of a document

A document is a sequence of tokens that make its nesting explicit: where a block collection is nested by indentation,
tokens mark its beginning and end. A mapping key may be written without a mark of its own, and is known for one only at
the colon after it: so the beginning of each possible key is remembered, and at the colon the mark is put in before it.
Such a key stands on one line and is at most 1024 characters long.

`tokens` gives the tokens of a text up to a place where there is none: the `Scanner` of the YAML library (`step` is
`fetch_more_tokens`). A token is known only when no key can begin with it any more, so it may also be hidden by what
comes after it on its line. Comments and the places of tokens are left out.
-/

namespace EvalOrder.Yaml

open Text (Points)

inductive Token where
  | streamEnd
  /-- The version that a document is written in; only the first number matters. -/
  | version (major : Nat)
  /-- What a handle stands for in tags. -/
  | handle (name expansion : List Char)
  | otherDirective
  | documentStart
  | documentEnd
  | blockSequenceStart
  | blockMappingStart
  | blockEnd
  | flowSequenceStart
  | flowSequenceEnd
  | flowMappingStart
  | flowMappingEnd
  | blockEntry
  | flowEntry
  | key
  | value
  | alias (name : List Char)
  | anchor (name : List Char)
  | tag (handle : Option (List Char)) (suffix : List Char)
  | scalar (text : Points) (plain : Bool)
  deriving DecidableEq, Repr

/-- The tokens of a text, and why there are no more of them before its end. -/
structure Tokens where
  tokens : List Token
  failure : Option Failure := none
  deriving DecidableEq, Repr

/-- A place where a key may have begun: the number of tokens before it, and whether it has to be a key. -/
structure PossibleKey where
  tokens : Nat
  required : Bool
  index : Nat
  line : Nat
  column : Nat
  deriving DecidableEq, Repr

/-- A lexer under way: the input, the tokens so far, how many flow collections are open, the indentation of the
open block collections with the innermost first, whether a key may begin here, and the places where one may have
begun, by the number of flow collections that were open. -/
structure Lexer where
  input : Input
  tokens : List Token := []
  flow : Nat := 0
  indent : Int := -1
  outer : List Int := []
  keyAllowed : Bool := true
  keys : Table Nat PossibleKey := []

namespace Lexer

def inFlow (x : Lexer) : Bool := x.flow ≠ 0

/-- Add tokens. -/
def emit (x : Lexer) (ts : List Token) : Lexer := { x with tokens := x.tokens ++ ts }

/-- Put tokens in after the first `n`. -/
def insertAt (x : Lexer) (n : Nat) (ts : List Token) : Lexer :=
  { x with tokens := x.tokens.take n ++ ts ++ x.tokens.drop n }

/-! ## Indentation and keys -/

/-- Close the block collections that are indented deeper than `column`. -/
def unwind (x : Lexer) (column : Int) : Lexer :=
  if x.inFlow then x
  else
    let depths := x.indent :: x.outer
    let closed := depths.takeWhile (column < ·)
    let left := depths.dropWhile (column < ·)
    { x.emit (closed.map fun _ => .blockEnd) with indent := left.headD (-1), outer := left.tail }

/-- Begin a block collection at `column` if it is deeper than the innermost; the token that begins it is put in
after the first `n` tokens. -/
def deepen (x : Lexer) (column : Nat) (n : Nat) (start : Token) : Lexer :=
  if x.indent < column then
    { x.insertAt n [start] with indent := column, outer := x.indent :: x.outer }
  else x

/-- A possible key has become too long. -/
def isStale (x : Lexer) (k : PossibleKey) : Bool := k.line ≠ x.input.line || 1024 < x.input.index - k.index

/-- The number of tokens before which no key can begin any more. -/
def known (x : Lexer) : Nat :=
  (x.keys.filter fun e => !x.isStale e.2).foldl (fun n e => min n e.2.tokens) x.tokens.length

/-- Forget the possible keys that have become too long. One that has to be a key is then an error. -/
def dropStale (x : Lexer) : Except Failure Lexer :=
  if x.keys.any fun e => x.isStale e.2 && e.2.required then .error .malformed
  else .ok { x with keys := x.keys.filter fun e => !x.isStale e.2 }

/-- Forget the possible key at the present depth. One that has to be a key is then an error. -/
def dropKey (x : Lexer) : Except Failure Lexer :=
  match Table.get? x.keys x.flow with
  | some k => if k.required then .error .malformed else .ok { x with keys := x.keys.filter (·.1 ≠ x.flow) }
  | none => .ok x

/-- Remember that a key may begin here. -/
def saveKey (x : Lexer) : Except Failure Lexer :=
  if x.keyAllowed then do
    let required := !x.inFlow && x.indent = (x.input.column : Int)
    let x ← x.dropKey
    let s := x.input
    let k : PossibleKey := ⟨x.tokens.length, required, s.index, s.line, s.column⟩
    return { x with keys := Table.put x.keys x.flow k }
  else .ok x

/-! ## Passing what separates tokens -/

/-- Pass spaces, comments and line ends. After a line end a key may begin, unless a flow collection is open. -/
def toNextToken : Nat → Lexer → Lexer
  | 0, x => x
  | steps + 1, x =>
    let s := x.input.skip (· = ' ')
    let s := if s.peek = '#' then s.skip (!isBreakOrEnd ·) else s
    if isBreak s.peek then
      toNextToken steps { x with input := s.lineBreak.2, keyAllowed := x.keyAllowed || !x.inFlow }
    else { x with input := s }

/-! ## Tokens that are marks -/

/-- A mark of `n` characters. -/
def mark (x : Lexer) (n : Nat) (t : Token) : Lexer :=
  { x.emit [t] with input := x.input.forward n }

def documentMark (x : Lexer) (t : Token) : Except Failure Lexer := do
  let x ← (x.unwind (-1)).dropKey
  return { x with keyAllowed := false }.mark 3 t

def flowStart (x : Lexer) (t : Token) : Except Failure Lexer := do
  let x ← x.saveKey
  return { x with flow := x.flow + 1, keyAllowed := true }.mark 1 t

def flowEnd (x : Lexer) (t : Token) : Except Failure Lexer := do
  let x ← x.dropKey
  return { x with flow := x.flow - 1, keyAllowed := false }.mark 1 t

def flowEntry (x : Lexer) : Except Failure Lexer := do
  let x ← { x with keyAllowed := true }.dropKey
  return x.mark 1 .flowEntry

def blockEntry (x : Lexer) : Except Failure Lexer :=
  if !x.inFlow && !x.keyAllowed then .error .malformed
  else do
    let x := if x.inFlow then x
      else x.deepen x.input.column x.tokens.length .blockSequenceStart
    let x ← { x with keyAllowed := true }.dropKey
    return x.mark 1 .blockEntry

def keyMark (x : Lexer) : Except Failure Lexer :=
  if !x.inFlow && !x.keyAllowed then .error .malformed
  else do
    let x := if x.inFlow then x
      else x.deepen x.input.column x.tokens.length .blockMappingStart
    let x ← { x with keyAllowed := !x.inFlow }.dropKey
    return x.mark 1 .key

def valueMark (x : Lexer) : Except Failure Lexer :=
  match Table.get? x.keys x.flow with
  | some k =>
    let x := { x with keys := x.keys.filter (·.1 ≠ x.flow) }.insertAt k.tokens [.key]
    let x := if x.inFlow then x else x.deepen k.column k.tokens .blockMappingStart
    .ok ({ x with keyAllowed := false }.mark 1 .value)
  | none =>
    if !x.inFlow && !x.keyAllowed then .error .malformed
    else do
      let x := if x.inFlow then x
        else x.deepen x.input.column x.tokens.length .blockMappingStart
      let x ← { x with keyAllowed := !x.inFlow }.dropKey
      return x.mark 1 .value

/-! ## Tokens that hold text -/

/-- The name of an anchor or alias after its mark. -/
def anchorName (s : Input) : Except Failure (List Char × Input) :=
  let name := s.run isWordChar
  let s := s.forward name.length
  let c := s.peek
  if name = [] || !(isGap c || "?:,]\x7d%@`".toList.contains c) then .error s.refusal else .ok (name, s)

/-- A handle of a tag, between exclamation marks; one alone is a handle too. -/
def tagHandle (s : Input) : Except Failure (List Char × Input) :=
  if s.peek ≠ '!' then .error s.refusal
  else
    let name := s.next.run isWordChar
    let after := s.next.forward name.length
    if after.peek = '!' then .ok ('!' :: name ++ ['!'], after.next)
    else if s.peekAt 1 = ' ' then .ok (['!'], s.next)
    else .error after.refusal

/-- A character of a tag that stands for itself. -/
def isTagChar (c : Char) : Bool := c.isAlphanum || "-;/?:@&=+$,_.!~*'()[]".toList.contains c

/-- The bytes that escapes in a tag stand for. -/
def tagEscapes : Nat → Input → Except Failure (List UInt8 × Input)
  | 0, _ => .error .malformed
  | steps + 1, s =>
    if s.peek = '%' then
      let digits := s.next.rest.take 2
      if digits.length = 2 ∧ digits.all Number.isHexDigit then do
        let (bytes, s) ← tagEscapes steps (s.forward 3)
        return (UInt8.ofNat (Number.valueIn 16 0 digits) :: bytes, s)
      else .error (s.next.forward (digits.takeWhile Number.isHexDigit).length).refusal
    else .ok ([], s)

/-- The text of a tag. -/
def tagText : Nat → Input → Except Failure (List Char × Input)
  | 0, _ => .error .malformed
  | steps + 1, s =>
    if isTagChar s.peek then do
      let (cs, s') ← tagText steps s.next
      return (s.peek :: cs, s')
    else if s.peek = '%' then do
      let (bytes, s) ← tagEscapes (s.rest.length + 1) s
      let (cs, s) ← match String.fromUTF8? ⟨bytes.toArray⟩ with
        | some part => (tagText steps s).map fun (cs, s) => (part.toList ++ cs, s)
        | none => .error s.refusal
      return (cs, s)
    else .ok ([], s)

/-- The text of a tag, which is not empty. -/
def tagText? (s : Input) : Except Failure (List Char × Input) := do
  let (cs, s) ← tagText (s.rest.length + 1) s
  if cs = [] then throw s.refusal else return (cs, s)

/-- A tag. -/
def tagToken (s : Input) : Except Failure (Token × Input) := do
  let c := s.peekAt 1
  let (t, s) ←
    if c = '<' then do
      let (suffix, s) ← tagText? (s.forward 2)
      if s.peek = '>' then pure (Token.tag none suffix, s.next) else throw s.refusal
    else if isGap c then pure (Token.tag none ['!'], s.next)
    else do
      let word := s.next.run fun c => !(isSpaceOrEnd c || c = '!')
      s.next.reach word.length
      if s.next.peekAt word.length = '!' then do
        let (handle, s) ← tagHandle s
        let (suffix, s) ← tagText? s
        pure (Token.tag (some handle) suffix, s)
      else do
        let (suffix, s) ← tagText? s.next
        pure (Token.tag (some ['!']) suffix, s)
  if isSpaceOrEnd s.peek then return (t, s) else throw s.refusal

/-- A decimal number. -/
def number (s : Input) : Except Failure (Nat × Input) := do
  let digits := s.run Char.isDigit
  s.reach digits.length
  if digits = [] then throw .malformed
  else if Number.digitLimit < digits.length then throw (.fault (.tooLong digits.length))
  else return (Number.valueIn 10 0 digits, s.forward digits.length)

/-- A directive after its mark, up to the end of its line. -/
def directive (s : Input) : Except Failure (Token × Input) := do
  let name := s.run isWordChar
  let s := s.forward name.length
  if name = [] || !isSpaceOrEnd s.peek then throw s.refusal
  else
    let (t, s) ←
      if name = "YAML".toList then do
        let (major, s) ← number (s.skip (· = ' '))
        if s.peek ≠ '.' then throw s.refusal
        else
          let (_, s) ← number s.next
          if isSpaceOrEnd s.peek then pure (Token.version major, s) else throw s.refusal
      else if name = "TAG".toList then do
        let (handle, s) ← tagHandle (s.skip (· = ' '))
        if s.peek ≠ ' ' then throw s.refusal
        else
          let (expansion, s) ← tagText? (s.skip (· = ' '))
          if isSpaceOrEnd s.peek then pure (Token.handle handle expansion, s) else throw s.refusal
      else pure (Token.otherDirective, s.skip (!isBreakOrEnd ·))
    let s := s.skip (· = ' ')
    let s := if s.peek = '#' then s.skip (!isBreakOrEnd ·) else s
    if isBreakOrEnd s.peek then return (t, s.lineBreak.2) else throw s.refusal

def directiveLine (x : Lexer) : Except Failure Lexer := do
  let x ← (x.unwind (-1)).dropKey
  let (t, s) ← directive x.input.next
  return { x with keyAllowed := false, input := s }.emit [t]

/-- A token that holds text and may be a key. -/
def textToken (x : Lexer) (read : Input → Except Failure (Token × Input)) : Except Failure Lexer := do
  let x ← x.saveKey
  let (t, s) ← read x.input
  return { x with keyAllowed := false, input := s }.emit [t]

def quotedToken (quote : Char) (s : Input) : Except Failure (Token × Input) := do
  let (text, s) ← quotedScalar quote (s.rest.length + 1) s.next
  return (.scalar text false, s)

def blockToken (x : Lexer) (folded : Bool) : Except Failure Lexer := do
  let x ← { x with keyAllowed := true }.dropKey
  let (text, s) ← blockScalar folded x.indent x.input.next
  return { x with input := s }.emit [.scalar (Points.ofChars text) false]

def plainToken (x : Lexer) : Except Failure Lexer := do
  let x ← x.saveKey
  let (text, ended, s) ← plainScalar x.inFlow (x.indent + 1) (x.input.rest.length + 1) x.input
  return { x with keyAllowed := ended, input := s }.emit [.scalar (Points.ofChars text) true]

/-! ## The lexer -/

/-- A plain scalar may begin here. -/
def atPlain (x : Lexer) : Bool :=
  let c := x.input.peek
  let marks := "-?:,[]\x7b\x7d#&*!|>%@`".toList
  if !(isGap c || marks.contains c || c = singleQuote || c = doubleQuote) then true
  else !isGap (x.input.peekAt 1) && (c = '-' || (!x.inFlow && (c = '?' || c = ':')))

/-- What the next character begins depends on the one after it. -/
def looksAhead (x : Lexer) : Bool :=
  let c := x.input.peek
  let marks := if x.inFlow then "-|>%@`\t" else "-?:%@`\t"
  marks.toList.contains c && !(c = '%' && x.input.column = 0)

/-- Read the token after what separates it from the last. -/
def token (x : Lexer) : Except Failure Lexer :=
  let s := x.input
  let c := s.peek
  let gapFollows := isGap (s.peekAt 1)
  if c = '%' && s.column = 0 then x.directiveLine
  else if s.column = 0 && s.atMarker '-' then x.documentMark .documentStart
  else if s.column = 0 && s.atMarker '.' then x.documentMark .documentEnd
  else if c = '[' then x.flowStart .flowSequenceStart
  else if c = '{' then x.flowStart .flowMappingStart
  else if c = ']' then x.flowEnd .flowSequenceEnd
  else if c = '}' then x.flowEnd .flowMappingEnd
  else if c = ',' then x.flowEntry
  else if c = '-' && gapFollows then x.blockEntry
  else if c = '?' && (x.inFlow || gapFollows) then x.keyMark
  else if c = ':' && (x.inFlow || gapFollows) then x.valueMark
  else if c = '*' then x.textToken fun s => do
    let (name, s) ← anchorName s.next
    return (.alias name, s)
  else if c = '&' then x.textToken fun s => do
    let (name, s) ← anchorName s.next
    return (.anchor name, s)
  else if c = '!' then x.textToken tagToken
  else if c = '|' && !x.inFlow then x.blockToken false
  else if c = '>' && !x.inFlow then x.blockToken true
  else if c = singleQuote || c = doubleQuote then x.textToken (quotedToken c)
  else if x.atPlain then x.plainToken
  else .error .malformed

/-- One step: pass what separates tokens and read one; `true` when there was none left. -/
def step (x : Lexer) : Except Failure (Bool × Lexer) := do
  let x ← x.dropStale
  let x := toNextToken (x.input.rest.length + 1) x
  x.input.reach 0
  let x ← x.dropStale
  let x := x.unwind x.input.column
  if x.input.peek = endMark then
    let x ← (x.unwind (-1)).dropKey
    return (true, x.emit [.streamEnd])
  else
    if x.input.column = 0 && (x.input.peek = '-' || x.input.peek = '.') then x.input.reachMarker
    if x.looksAhead then x.input.reach 1
    let x ← x.token
    x.input.reach 0
    return (false, x)

/-- Read tokens up to the end of the text. -/
def run : Nat → Lexer → Tokens
  | 0, x => ⟨x.tokens, some .malformed⟩
  | steps + 1, x =>
    match x.step with
    | .error e => ⟨x.tokens.take x.known, some e⟩
    | .ok (true, x) => ⟨x.tokens, none⟩
    | .ok (false, x) => run steps x

end Lexer

/-- The tokens of a text. -/
def tokens (text : Supply) : Tokens :=
  let cs := if text.chars.head? = some byteOrderMark then text.chars.tail else text.chars
  Lexer.run (cs.length + 1) { input := { rest := cs, beyond := text.beyond } }

end EvalOrder.Yaml
