import EvalOrder.Files.Text
import EvalOrder.Text.Quoted

/-!
# Paths

A path is a text in which slashes separate names. It begins at the root if it begins with a slash, and in the working
directory otherwise. The name `.` stands for the directory itself and `..` for the one above, which for the root is the
root.

To the system a path is bytes. Those that write no character are single code points in a text, halves of surrogate pairs
from U+DC80 to U+DCFF (`surrogateescape`); where such code points together write a character, the name is the same as
with that character. A path that holds another half, or a null character, cannot be looked up (`checkPath`).

`PathError` is what `open` raises: an `OSError`, which callers report, or a `ValueError`, which they do not. Left out
are symbolic links and permissions.
-/

namespace EvalOrder.Files

open Text (Points)

/-- Why a path does not lead to a file. -/
inductive PathFault where
  | notFound
  | notDirectory
  | isDirectory
  | nameTooLong
  deriving DecidableEq, Repr

namespace PathFault

def code : PathFault → Nat
  | notFound => 2
  | notDirectory => 20
  | isDirectory => 21
  | nameTooLong => 36

def wording : PathFault → String
  | notFound => "No such file or directory"
  | notDirectory => "Not a directory"
  | isDirectory => "Is a directory"
  | nameTooLong => "File name too long"

end PathFault

/-- A path that cannot be opened. -/
inductive PathError where
  /-- A path that does not lead to a file. -/
  | fault (fault : PathFault) (path : Points)
  /-- A path that holds a null character. -/
  | nullCharacter
  /-- A path that holds halves of surrogate pairs; the first that stands for no byte and those after it, and where
  they are. -/
  | halfCharacters (halves : Points) (index : Nat)
  deriving DecidableEq, Repr

namespace PathError

def message : PathError → String
  | fault f path => s!"[Errno {f.code}] {f.wording}: {Points.quoted path}"
  | nullCharacter => "embedded null byte"
  | halfCharacters halves index =>
    let place := match halves with
      | [half] => s!"character {Points.quoted [half]} in position {index}"
      | _ => s!"characters in position {index}-{index + halves.length - 1}"
    s!"'utf-8' codec can't encode {place}: surrogates not allowed"

/-- The error comes from looking the path up, and can be reported as such. -/
def isReported : PathError → Bool
  | fault _ _ => true
  | _ => false

end PathError

/-! ## Names -/

/-- A code point that stands for a byte. -/
def isByte (n : Nat) : Bool := 0xDC80 ≤ n && n ≤ 0xDCFF

/-- Half of a surrogate pair that stands for no byte. -/
def isBareHalf (n : Nat) : Bool := (Points.char? n).isNone && !isByte n

/-- The character that the first code points of a text write as bytes, and the number of those after the first. -/
def writtenChar? (ps : Points) : Option (Nat × Nat) :=
  [1, 2, 3].findSome? fun more =>
    let part := ps.take (more + 1)
    if part.length = more + 1 ∧ part.all isByte then
      match (decode? (part.map fun n => UInt8.ofNat (n - 0xDC00))).map String.toList with
      | some [c] => some (c.toNat, more)
      | _ => none
    else none

/-- A text in which what its bytes write are characters. -/
def joined : Points → Points
  | [] => []
  | n :: ns =>
    match writtenChar? (n :: ns) with
    | some (c, more) => c :: joined (ns.drop more)
    | none => n :: joined ns
termination_by ps => ps.length
decreasing_by all_goals simp +arith [List.length_drop]

/-- The number of bytes of a text. -/
def byteSize : Points → Nat
  | [] => 0
  | n :: ns => (if isByte n then 1 else (Char.ofNat n).utf8Size) + byteSize ns

/-- Names on the way from the root. -/
abbrev Names := List Points

def slash : Nat := 0x2F

/-- The names in a path; slashes that follow one another or end the path give empty names. -/
def namesOf (path : Points) : Names := (joined path).splitOn slash

/-- A path begins at the root. -/
def isAbsolute (path : Points) : Bool := path.head? = some slash

/-- One name further. -/
def down (here : Names) (name : Points) : Names :=
  if name = [] ∨ name = Points.ofString "." then here
  else if name = Points.ofString ".." then here.dropLast
  else here ++ [name]

/-- Names further, one after the other. -/
def descend (here : Names) (names : Names) : Names := names.foldl down here

/-- The path from the root. -/
def pathOf (names : Names) : Points := slash :: [slash].intercalate names

/-- A path that can be looked up. -/
def checkPath (path : Points) : Except PathError Unit :=
  let before := path.takeWhile (!isBareHalf ·)
  match path.drop before.length with
  | [] => if path.contains 0 then .error .nullCharacter else .ok ()
  | rest => .error (.halfCharacters (rest.takeWhile fun n => (Points.char? n).isNone) before.length)

end EvalOrder.Files
