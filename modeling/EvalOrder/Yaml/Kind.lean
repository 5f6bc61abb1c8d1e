import EvalOrder.Number.Digits
import EvalOrder.Text.Points

/-!
# Kinds of nodes

Every node is of a kind, which its tag names or, for a scalar that is written plain and without a tag, its spelling
tells (the `Resolver` of the YAML library). Numbers may hold underscores after their first digit and may be written in
base 60, with colons between the digits. A line feed at the end of a text does not matter here; only a text that is not
written plain can have one. Tags that no safe document may have are one kind, `other`.
-/

namespace EvalOrder.Yaml

open Text (Points)

/-- The kinds of nodes. -/
inductive Kind where
  | null
  | bool
  | int
  | float
  | binary
  | stamp
  | str
  | seq
  | map
  | set
  | omap
  | pairs
  /-- The key of entries that are merged into the mapping around it. -/
  | merge
  /-- The key of the entry that stands for the mapping around it where a scalar is wanted. -/
  | default
  /-- A kind that values are not made of. -/
  | other
  deriving DecidableEq, Repr

namespace Kind

/-- What the tags of the standard kinds begin with. -/
def standard : List Char := "tag:yaml.org,2002:".toList

/-- The standard kinds by their names. -/
def named : List (String × Kind) :=
  [("null", null), ("bool", bool), ("int", int), ("float", float), ("binary", binary), ("timestamp", stamp),
    ("str", str), ("seq", seq), ("map", map), ("set", set), ("omap", omap), ("pairs", pairs), ("merge", merge),
    ("value", default)]

/-- The kind that a tag names. -/
def ofTag (tag : List Char) : Kind :=
  match named.find? fun e => standard ++ e.1.toList = tag with
  | some e => e.2
  | none => other

/-- The kind of a node of which the tag may leave it open, as the tag `!` does. -/
def ofTag? (tag : Option (List Char)) (whenOpen : Kind) : Kind :=
  match tag with
  | none => whenOpen
  | some t => if t = ['!'] then whenOpen else ofTag t

end Kind

/-! ## Integers -/

/-- Digits of a class and underscores, at least one of them. -/
def areDigits (p : Char → Bool) (cs : List Char) : Bool := !cs.isEmpty && cs.all fun c => p c || c = '_'

def isOctalDigit (c : Char) : Bool := '0' ≤ c && c ≤ '7'

/-- A digit of base 60 after the first: a number up to 59. -/
def isSixtieth : List Char → Bool
  | [c] => c.isDigit
  | [c, d] => '0' ≤ c && c ≤ '5' && d.isDigit
  | _ => false

/-- Decimal digits and underscores, of which a digit comes first. -/
def isDecimalRun (cs : List Char) : Bool :=
  (cs.head?.any Char.isDigit) && areDigits Char.isDigit cs

/-- A number in base 60 of at least two digits, the first of which may be larger. -/
def isSexagesimal (cs : List Char) : Bool :=
  match cs.splitOn ':' with
  | first :: second :: more => isDecimalRun first && (second :: more).all isSixtieth
  | _ => false

/-- A text without a sign in front. -/
def unsigned : List Char → List Char
  | '-' :: cs => cs
  | '+' :: cs => cs
  | cs => cs

/-- An integer: binary, hexadecimal or octal after a zero, decimal, or in base 60. -/
def isInteger (cs : List Char) : Bool :=
  match unsigned cs with
  | '0' :: 'b' :: ds => areDigits (fun c => c = '0' || c = '1') ds
  | '0' :: 'x' :: ds => areDigits Number.isHexDigit ds
  | ['0'] => true
  | '0' :: ds => areDigits isOctalDigit ds
  | ds => isDecimalRun ds || isSexagesimal ds

/-! ## Floating-point numbers -/

/-- An exponent, which has a sign, or nothing. -/
def isExponent : List Char → Bool
  | [] => true
  | e :: sign :: ds =>
    (e = 'e' || e = 'E') && (sign = '-' || sign = '+') && !ds.isEmpty && ds.all Char.isDigit
  | _ => false

/-- A decimal numeral with a point and perhaps an exponent. -/
def isDecimalFloat (cs : List Char) : Bool :=
  let p (c : Char) : Bool := c.isDigit || c = '_'
  match cs with
  | [] => false
  | c :: _ =>
    let whole := cs.takeWhile p
    match cs.dropWhile p with
    | '.' :: rest =>
      let part := rest.takeWhile p
      isExponent (rest.dropWhile p) &&
        (if whole.isEmpty then part.head?.any Char.isDigit else c.isDigit)
    | _ => false

/-- A number in base 60 whose last digit has a part after a point. -/
def isSexagesimalFloat (cs : List Char) : Bool :=
  let whole := cs.takeWhile (· ≠ '.')
  match cs.dropWhile (· ≠ '.') with
  | '.' :: part => (part.all fun c => c.isDigit || c = '_') && isSexagesimal whole
  | _ => false

def infinities : List String := [".inf", ".Inf", ".INF"]

def notNumbers : List String := [".nan", ".NaN", ".NAN"]

/-- A floating-point number. Without digits before the point it has no sign. -/
def isFloat (cs : List Char) : Bool :=
  let digits := unsigned cs
  infinities.contains (String.ofList digits) || notNumbers.contains (String.ofList cs) ||
    (isDecimalFloat digits && !(digits.head? = some '.' && digits.length < cs.length)) ||
    isSexagesimalFloat digits

/-! ## Dates and times -/

/-- The numbers that a date or time is written in. -/
structure StampNumbers where
  date : Nat × Nat × Nat
  /-- Hour, minute and second. -/
  time : Option (Nat × Nat × Nat) := none
  /-- The digits after the point of the second. -/
  fraction : List Char := []
  /-- How far the clock is ahead of universal time, in seconds. -/
  offset : Option Int := none
  deriving DecidableEq, Repr

def isBlank (c : Char) : Bool := c = ' ' || c = '\t'

/-- A number written in `least` to `most` digits, and what follows them. -/
def shortNumber? (least most : Nat) (cs : List Char) : Option (Nat × List Char) :=
  let ds := cs.takeWhile Char.isDigit
  if least ≤ ds.length ∧ ds.length ≤ most then
    some (ds.foldl (fun n c => 10 * n + (c.toNat - '0'.toNat)) 0, cs.dropWhile Char.isDigit)
  else none

/-- What follows a mark. -/
def after? (mark : Char) : List Char → Option (List Char)
  | c :: cs => if c = mark then some cs else none
  | [] => none

/-- A distance in seconds, written as hours and perhaps minutes, up to the end of the text. -/
def distance? (cs : List Char) : Option Nat := do
  let (hours, cs) ← shortNumber? 1 2 cs
  if cs.isEmpty then return 3600 * hours
  else
    let (minutes, cs) ← shortNumber? 2 2 (← after? ':' cs)
    if cs.isEmpty then return 3600 * hours + 60 * minutes else none

/-- The offset of a clock up to the end of the text. -/
def offset? : List Char → Option Int
  | ['Z'] => some 0
  | '+' :: cs => (distance? cs).map fun n => n
  | '-' :: cs => (distance? cs).map fun n => -(n : Int)
  | _ => none

/-- What follows the mark or the blanks between a date and a time. -/
def afterDate? : List Char → Option (List Char)
  | 'T' :: cs => some cs
  | 't' :: cs => some cs
  | c :: cs => if isBlank c then some (cs.dropWhile isBlank) else none
  | [] => none

/-- The numbers of a date, or of a date and a time with blanks or a `T` between them. -/
def stampNumbers? (cs : List Char) : Option StampNumbers := do
  let (year, cs) ← shortNumber? 4 4 cs
  let (month, cs) ← shortNumber? 1 2 (← after? '-' cs)
  let (day, cs) ← shortNumber? 1 2 (← after? '-' cs)
  let date := (year, month, day)
  if cs.isEmpty then return { date }
  else
    let (hour, cs) ← shortNumber? 1 2 (← afterDate? cs)
    let (minute, cs) ← shortNumber? 2 2 (← after? ':' cs)
    let (second, cs) ← shortNumber? 2 2 (← after? ':' cs)
    let time := some (hour, minute, second)
    let (fraction, cs) := match cs with
      | '.' :: cs => (cs.takeWhile Char.isDigit, cs.dropWhile Char.isDigit)
      | cs => ([], cs)
    if cs.isEmpty then return { date, time, fraction }
    else return { date, time, fraction, offset := some (← offset? (cs.dropWhile isBlank)) }

/-- A date, or a date and a time. A date alone has two digits for its month and its day. -/
def isStamp (cs : List Char) : Bool :=
  match stampNumbers? cs with
  | some n => n.time.isSome || cs.length = 10
  | none => false

/-! ## Spellings -/

def nulls : List String := ["", "~", "null", "Null", "NULL"]

def trues : List String := ["yes", "Yes", "YES", "true", "True", "TRUE", "on", "On", "ON"]

def falses : List String := ["no", "No", "NO", "false", "False", "FALSE", "off", "Off", "OFF"]

/-- The marks that are no values, though nothing written plain begins with one. -/
def marks : List String := ["!", "&", "*"]

/-- The kind that a spelling tells. -/
def kindOfChars (cs : List Char) : Kind :=
  let s := String.ofList cs
  if s ∈ nulls then .null
  else if s ∈ trues then .bool
  else if s ∈ falses then .bool
  else if s = "<<" then .merge
  else if s = "=" then .default
  else if s ∈ marks then .other
  else if isFloat cs then .float
  else if isInteger cs then .int
  else if isStamp cs then .stamp
  else .str

/-- A text without a line feed at its end, if that is not all of it. -/
def withoutLineFeed (cs : List Char) : List Char :=
  if cs.getLast? = some '\n' ∧ 1 < cs.length then cs.dropLast else cs

/-- The kind that the text of a scalar tells. -/
def kindOf (text : Points) : Kind :=
  match Points.chars? text with
  | some cs => kindOfChars (withoutLineFeed cs)
  | none => .str

end EvalOrder.Yaml
