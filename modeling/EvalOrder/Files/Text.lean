/-!
# Text in files

A file holds bytes. As a text they are read as UTF-8, strictly (`decode?`), and the three ways to end a line, a line
feed, a carriage return and the one after the other, are all read as a line feed (`unified`), as `open` does for a text
file.
-/

namespace EvalOrder.Files

/-- The bytes of a file. -/
abbrev Bytes := List UInt8

/-- The bytes of a text. -/
def encode (s : String) : Bytes := s.toUTF8.toList

/-- The text of bytes that are valid UTF-8. -/
def decode? (bytes : Bytes) : Option String := String.fromUTF8? ⟨bytes.toArray⟩

/-- Every line end as a line feed. -/
def unifyLines : List Char → List Char
  | [] => []
  | '\r' :: '\n' :: cs => '\n' :: unifyLines cs
  | c :: cs => (if c = '\r' then '\n' else c) :: unifyLines cs

/-- A text with every line end as a line feed. -/
def unified (s : String) : String := String.ofList (unifyLines s.toList)

end EvalOrder.Files
