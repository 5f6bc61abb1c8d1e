import EvalOrder.Files.Text
import EvalOrder.Text.Utf8

/-!
# Reading a text in portions

A reader that asks for a text in portions of some number of characters does not see all of a file at once. The bytes are
taken in pieces as the portions need them, a piece as long as the last one suggests, and only a piece that was taken is
decoded. So bytes that are no text are found when a portion needs a piece that holds them, and the portions before it
are there.

`take` is `read` of a text file with a number of characters, which the YAML library calls; `read_text` calls it without
one, and sees the whole file.
-/

namespace EvalOrder.Files

/-- A file under way: the bytes that were not taken, what is known of a character that the last piece breaks off,
whether it ends in a carriage return, of which a line end is made when it is seen what follows, the characters that no
portion has taken yet, and how many bytes and characters the last piece had. -/
structure Opened where
  bytes : Bytes
  pending : Text.Pending := {}
  afterReturn : Bool := false
  ready : List Char := []
  pieceBytes : Nat := 0
  pieceChars : Nat := 0

namespace Opened

/-- The least number of bytes in a piece. -/
def leastPiece : Nat := 8192

/-- The number of bytes that are taken for characters that are wanted, if they are as long as those of the last
piece. -/
def pieceSize (o : Opened) (wanted : Nat) : Nat := max leastPiece (o.pieceBytes * wanted / o.pieceChars)

/-- Take the next piece: `true` when there was none left. -/
def refill (o : Opened) (wanted : Nat) : Option (Bool × Opened) :=
  let piece := o.bytes.take (o.pieceSize wanted)
  if piece.isEmpty then
    if o.pending.owed ≠ 0 then none
    else some (!o.afterReturn, { o with
      afterReturn := false, ready := if o.afterReturn then ['\n'] else [], pieceBytes := 0, pieceChars := 0 })
  else
    (o.pending.feed piece).map fun (cs, pending) =>
      let cs := if o.afterReturn && !cs.isEmpty then '\r' :: cs else cs
      let returns := cs.getLast? = some '\r'
      let ready := unifyLines (if returns then cs.dropLast else cs)
      (false, { bytes := o.bytes.drop (o.pieceSize wanted), pending, ready
                afterReturn := returns || (o.afterReturn && cs.isEmpty)
                pieceBytes := piece.length, pieceChars := ready.length })

/-- The next `wanted` characters, or fewer at the end of the file. Each piece takes a byte, so two more steps than there
are bytes are enough. -/
def take : Nat → Opened → (wanted : Nat) → Option (List Char × Opened)
  | 0, o, _ => some ([], o)
  | steps + 1, o, wanted =>
    let taken := o.ready.take wanted
    let o := { o with ready := o.ready.drop wanted }
    if taken.length = wanted then some (taken, o)
    else match o.refill (wanted - taken.length) with
      | none => none
      | some (true, o) => some (taken, o)
      | some (false, o) => (take steps o (wanted - taken.length)).map fun (more, o) => (taken ++ more, o)

/-- The portions of `size` characters, up to the first that cannot be read; `true` when there is none such. -/
def portions (size : Nat) : Nat → Opened → List (List Char) × Bool
  | 0, _ => ([], true)
  | steps + 1, o =>
    match o.take (o.bytes.length + 2) size with
    | none => ([], false)
    | some ([], _) => ([], true)
    | some (cs, o) =>
      let (more, complete) := portions size steps o
      (cs :: more, complete)

end Opened

/-- The portions of `size` characters in a file, up to the first that cannot be read; `true` when there is none
such. -/
def portions (size : Nat) (bytes : Bytes) : List (List Char) × Bool :=
  Opened.portions size (bytes.length + 1) { bytes }

end EvalOrder.Files
