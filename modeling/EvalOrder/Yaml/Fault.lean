import EvalOrder.Document.Stamp
import EvalOrder.Number.Numeral
import EvalOrder.Text.Quoted

/-!
# Why a text has no value

A text may be no document at all: then its structure is wrong, or a node does not fit its tag. Both are a `YAMLError`,
whose text is left out. Otherwise a single scalar may have a form that fits its kind, or that of an escape, and still
have no value. That is a fault, which is raised as something else, and each fault has a message of its own.
-/

namespace EvalOrder.Yaml

open Text (Points)

/-- Why a scalar or an escape has no value. -/
inductive Fault where
  /-- A text that writes no integer in a base. -/
  | integer (base : Nat) (text : Points)
  /-- An integer of too many digits. -/
  | tooLong (digits : Nat)
  /-- A number without any character. -/
  | noDigits
  /-- A text that writes no decimal number. -/
  | decimal (text : Points)
  /-- A place in a decimal number of base 60 that is worth more than any double. -/
  | tooLarge
  /-- A word that is no truth value. -/
  | truthValue (word : Points)
  /-- A text that writes no date or time. -/
  | noStamp
  /-- A mapping, which gives its text elsewhere, in the place of a date or time. -/
  | stampOfMapping
  | stamp (fault : StampFault)
  /-- An escape by a number beyond the code points. -/
  | codePoint
  /-- An escape by a number of more than 31 bits. -/
  | codeWord
  deriving DecidableEq, Repr

namespace Fault

/-- As much of a text as a message about an integer shows. -/
def shownStart (text : Points) : String := String.ofList ((Points.quoted text).toList.take 200)

def message : Fault → String
  | integer base text => s!"invalid literal for int() with base {base}: {shownStart text}"
  | tooLong digits => Number.tooLong s!": value has {digits} digits"
  | noDigits => "string index out of range"
  | decimal text => s!"could not convert string to float: {Points.quoted text}"
  | tooLarge => "int too large to convert to float"
  | truthValue word => Points.quoted word
  | noStamp => "'NoneType' object has no attribute 'groupdict'"
  | stampOfMapping => "expected string or bytes-like object, got 'list'"
  | stamp fault => fault.message
  | codePoint => "chr() arg not in range(0x110000)"
  | codeWord => "Python int too large to convert to C int"

end Fault

/-- Why a text has no value. -/
inductive Failure where
  /-- The text is no document. -/
  | malformed
  /-- What is read is no text. -/
  | undecodable
  | fault (fault : Fault)
  deriving DecidableEq, Repr

/-- A value that a scalar may fail to have. -/
def Failure.ofFault {α : Type} : Except Fault α → Except Failure α
  | .ok a => .ok a
  | .error e => .error (.fault e)

end EvalOrder.Yaml
