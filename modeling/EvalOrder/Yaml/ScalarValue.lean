import EvalOrder.Document.Value
import EvalOrder.Text.Base64
import EvalOrder.Text.Case
import EvalOrder.Yaml.Fault
import EvalOrder.Yaml.Kind

/-!
# The values of scalars

The value that a text has as a scalar of a kind (the `SafeConstructor` of the YAML library). A tag may give a kind to
any text, so each kind has its faults; where the spelling has told the kind, only few of them can come.
-/

namespace EvalOrder.Yaml

open Text (Points)

/-- A text without underscores. -/
def withoutUnderscores (text : Points) : Points := text.filter (· ≠ '_'.toNat)

/-- A sign in front of a text, which is not empty: negative or not, and the rest. -/
def signed? : Points → Except Fault (Bool × Points)
  | [] => .error .noDigits
  | ps => .ok (Number.signOf ps)

/-- The parts of a text between colons. -/
def colonParts (ps : Points) : List Points := ps.splitOn ':'.toNat

/-! ## Numbers -/

/-- The integer that a text writes in a base. -/
def integerIn (base : Nat) (ps : Points) : Except Fault Int :=
  match Number.integerOf base ps with
  | .ok n => .ok n
  | .error .malformed => .error (.integer base ps)
  | .error (.tooLong digits) => .error (.tooLong digits)

/-- An integer without a sign of its own. A zero in front makes it octal, if no other mark of a base follows. -/
def naturalValue (ps : Points) : Except Fault Int :=
  match ps with
  | [] => .error .noDigits
  | [0x30] => .ok 0
  | 0x30 :: 0x62 :: ds => integerIn 2 ds
  | 0x30 :: 0x78 :: ds => integerIn 16 ds
  | 0x30 :: _ => integerIn 8 ps
  | _ =>
    if ps.contains ':'.toNat then
      ((colonParts ps).mapM (integerIn 10)).map fun ds => ds.foldl (fun n d => 60 * n + d) 0
    else integerIn 10 ps

def integerValue (text : Points) : Except Fault Int := do
  let (negative, ps) ← signed? (withoutUnderscores text)
  return (if negative then (- ·) else id) (← naturalValue ps)

/-- The double nearest to the number that a text writes. -/
def decimalOf (ps : Points) : Except Fault Float :=
  match Number.floatOf? ps with
  | some x => .ok x
  | none => .error (.decimal ps)

/-- The sum of the digits of a number in base 60, the last of which counts once. -/
def sexagesimalSum (digits : List Float) : Float :=
  (digits.reverse.foldl (fun (s : Float × Nat) d => (s.1 + d * Float.ofScientific s.2 false 0, s.2 * 60)) (0, 1)).1

/-- A float as a value; if it is no number, it comes from `origin`. -/
def ofFloat (origin : Nat) (x : Float) : Value := if x.isNaN then .nan origin else .float x

def floatValue (origin : Nat) (text : Points) : Except Fault Value := do
  let (negative, ps) ← signed? (Points.lower (withoutUnderscores text))
  let sign (x : Float) : Value := ofFloat origin (if negative then -x else x)
  if ps = Points.ofString ".inf" then return sign (1.0 / 0.0)
  else if ps = Points.ofString ".nan" then return .nan 0
  else if ps.contains ':'.toNat then
    let digits ← (colonParts ps).mapM decimalOf
    if Nat.pow 2 1024 ≤ Nat.pow 60 (digits.length - 1) then throw .tooLarge
    else return sign (sexagesimalSum digits)
  else return sign (← decimalOf ps)

/-! ## Other scalars -/

def truthWords : List (String × Bool) :=
  [("yes", true), ("no", false), ("true", true), ("false", false), ("on", true), ("off", false)]

def truthValue (text : Points) : Except Fault Bool :=
  let word := Points.lower text
  match truthWords.find? fun e => Points.ofString e.1 = word with
  | some e => .ok e.2
  | none => .error (.truthValue word)

/-- The first six digits of a fraction as a number of microseconds. -/
def microseconds (fraction : List Char) : Nat :=
  Number.valueIn 10 0 ((fraction ++ List.replicate 6 '0').take 6)

/-- A fault of a date or time as one of its scalar. -/
def ofStamp {α : Type} : Except StampFault α → Except Fault α
  | .ok a => .ok a
  | .error e => .error (.stamp e)

/-- The value of numbers that a date or time is written in. An offset of a day or more is found first. -/
def stampOfNumbers (n : StampNumbers) : Except Fault Value := do
  let (year, month, day) := n.date
  match n.time with
  | none => return .date (← ofStamp (Date.check year month day))
  | some (hour, minute, second) =>
    if let some seconds := n.offset then
      if secondsPerDay ≤ seconds.natAbs then throw (.stamp (.offset seconds))
    let date ← ofStamp (Date.check year month day)
    return .time (← ofStamp (Time.check date hour minute second (microseconds n.fraction) n.offset))

def stampValue (text : Points) : Except Fault Value :=
  match (Points.chars? text).bind fun cs => stampNumbers? (withoutLineFeed cs) with
  | some n => stampOfNumbers n
  | none => .error .noStamp

/-- The value of a scalar of a kind, from its text; collections, and kinds that are no kinds of values, have no
scalars. A value that is told apart by where it comes from comes from `origin`. -/
def scalarValue (origin : Nat) (kind : Kind) (text : Points) : Except Failure Value :=
  match kind with
  | .null => .ok .null
  | .bool => Failure.ofFault ((truthValue text).map .bool)
  | .int => Failure.ofFault ((integerValue text).map .int)
  | .float => Failure.ofFault (floatValue origin text)
  | .stamp => Failure.ofFault (stampValue text)
  | .str => .ok (.text text)
  | .binary => match Text.bytesOfBase64? text with
    | some bytes => .ok (.bytes bytes)
    | none => .error .malformed
  | _ => .error .malformed

end EvalOrder.Yaml
