/-!
# Token tags

The kinds of token a declaration is made of (`TokenTag`). The additive signs share a tag, and so do the multiplicative
ones: neither changes what a declaration mentions.
-/

namespace EvalOrder

/-- The kind of a token. -/
inductive Tag where
  | comma
  | endOfText
  | equalSign
  | ident
  | leftBracket
  | mulSign
  | number
  | rightBracket
  | semicolon
  | sumSign
  deriving DecidableEq, Repr

namespace Tag

/-- Every tag. -/
def all : List Tag :=
  [comma, endOfText, equalSign, ident, leftBracket, mulSign, number, rightBracket, semicolon, sumSign]

/-- The tag of a character that is a token by itself. -/
def ofChar? : Char → Option Tag
  | ';' => some semicolon
  | '(' => some leftBracket
  | ')' => some rightBracket
  | '=' => some equalSign
  | '+' => some sumSign
  | '-' => some sumSign
  | '*' => some mulSign
  | '/' => some mulSign
  | ',' => some comma
  | _ => none

/-- How a message names the tag. -/
def describe : Tag → String
  | comma => ","
  | endOfText => "END OF TEXT"
  | equalSign => "="
  | ident => "IDENT"
  | leftBracket => "("
  | mulSign => "* or /"
  | number => "NUMBER"
  | rightBracket => ")"
  | semicolon => ";"
  | sumSign => "+ or -"

/-- The tag's own name. -/
def name : Tag → String
  | comma => "COMMA"
  | endOfText => "END_OF_TEXT"
  | equalSign => "EQUAL_SIGN"
  | ident => "IDENT"
  | leftBracket => "LEFT_BRACKET"
  | mulSign => "MUL_SIGN"
  | number => "NUMBER"
  | rightBracket => "RIGHT_BRACKET"
  | semicolon => "SEMICOLON"
  | sumSign => "SUM_SIGN"

/-- The tag of a name. -/
def ofName? (s : String) : Option Tag :=
  all.find? fun t => t.name = s

end Tag

end EvalOrder
