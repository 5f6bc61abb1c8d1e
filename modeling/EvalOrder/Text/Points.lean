/-!
# Code points

A text of a document is a list of code points. An escape may write half of a surrogate pair, which is a code point but
no character, so such a text need not be a string. Texts of declarations are strings: strict decoding gives no such
halves.

Results:
* `string?_ofString`: a string is read back from its code points.
-/

namespace EvalOrder.Text

/-- A text as its code points. -/
abbrev Points := List Nat

namespace Points

def ofChars (cs : List Char) : Points := cs.map Char.toNat

def ofString (s : String) : Points := ofChars s.toList

/-- The character of a code point; half of a surrogate pair is none. -/
def char? (n : Nat) : Option Char := if n.isValidChar then some (Char.ofNat n) else none

/-- The characters of a text, if it holds no half of a surrogate pair. -/
def chars? : Points → Option (List Char)
  | [] => some []
  | n :: ns => do return (← char? n) :: (← chars? ns)

/-- A text as a string, if it holds no half of a surrogate pair. -/
def string? (ps : Points) : Option String := (chars? ps).map String.ofList

/-- The order of texts by code points. -/
def before : Points → Points → Bool
  | _, [] => false
  | [], _ :: _ => true
  | a :: as, b :: bs => a < b || (a = b && before as bs)

theorem char?_toNat (c : Char) : char? c.toNat = some c := by
  have h : c.toNat.isValidChar := c.valid
  simp [char?, h]

theorem chars?_ofChars : ∀ cs : List Char, chars? (ofChars cs) = some cs
  | [] => rfl
  | c :: cs => by
    have ih := chars?_ofChars cs
    unfold ofChars at ih ⊢
    simp [chars?, char?_toNat, ih]

theorem string?_ofString (s : String) : string? (ofString s) = some s := by
  simp [string?, ofString, chars?_ofChars]

theorem ofString_inj {s t : String} : ofString s = ofString t ↔ s = t := by
  refine ⟨fun h => ?_, fun h => h ▸ rfl⟩
  have h' := congrArg string? h
  simpa [string?_ofString] using h'

end Points

end EvalOrder.Text
