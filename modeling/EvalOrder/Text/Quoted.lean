import EvalOrder.Text.Class
import EvalOrder.Text.Points

/-!
# Quoted texts

A text as `repr` shows it. It stands between single quotes, or between double quotes when it holds a single quote and no
double one. The chosen quote and the backslash are escaped by a backslash; line feed, carriage return and tab have
escapes of their own; every other code point that is not printable is written in two, four or eight hexadecimal digits.
So a quoted text is a string, also when the text holds half of a surrogate pair.

Bytes are quoted after the letter `b`, and only those of printable ASCII characters are shown as these. `quotedList`
writes a list of texts between square brackets.
-/

namespace EvalOrder.Text

/-- The hexadecimal digit of `n`, for `n` below 16, in lower case. -/
def hexDigit (n : Nat) : Char :=
  if n < 10 then Char.ofNat (48 + n) else Char.ofNat (87 + n)

/-- The last `width` hexadecimal digits of `n`. -/
def hexDigits : Nat → Nat → List Char
  | 0, _ => []
  | width + 1, n => hexDigits width (n / 16) ++ [hexDigit (n % 16)]

/-- A code point as an escape. -/
def escapeCode (n : Nat) : List Char :=
  if n < 0x100 then '\\' :: 'x' :: hexDigits 2 n
  else if n < 0x10000 then '\\' :: 'u' :: hexDigits 4 n
  else '\\' :: 'U' :: hexDigits 8 n

/-- One code point between quotes `quote`; those that `shows` are shown as they are. -/
def quotedPoint (shows : Nat → Bool) (quote : Char) (n : Nat) : List Char :=
  if n = quote.toNat ∨ n = '\\'.toNat then ['\\', Char.ofNat n]
  else if n = '\n'.toNat then ['\\', 'n']
  else if n = '\r'.toNat then ['\\', 'r']
  else if n = '\t'.toNat then ['\\', 't']
  else if shows n then [Char.ofNat n]
  else escapeCode n

/-- The quote that a text is written between. -/
def quoteFor (ps : List Nat) : Char :=
  if '\''.toNat ∈ ps ∧ '"'.toNat ∉ ps then '"' else '\''

/-- Code points between quotes. -/
def quotedBy (shows : Nat → Bool) (ps : List Nat) : String :=
  let quote := quoteFor ps
  String.ofList (quote :: ps.flatMap (quotedPoint shows quote) ++ [quote])

/-- A text between quotes. -/
def Points.quoted (ps : Points) : String := quotedBy isPrintable ps

/-- A string between quotes. -/
def quoted (s : String) : String := Points.quoted (Points.ofString s)

/-- Bytes between quotes. -/
def quotedBytes (bytes : List UInt8) : String :=
  "b" ++ quotedBy (fun n => 0x20 ≤ n && n < 0x7F) (bytes.map UInt8.toNat)

/-- Texts between quotes, separated by commas, between square brackets. -/
def quotedList (ss : List String) : String :=
  "[" ++ ", ".intercalate (ss.map quoted) ++ "]"

end EvalOrder.Text
