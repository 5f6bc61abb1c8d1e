/-!
# Searching in a sorted sequence

The positions of a sorted sequence for which something holds are its first ones, if the order is one. The searches here
find their number by asking about few positions: `bisect` halves an interval, and `gallop` first looks for one around a
position that is likely to be near the end of it. What is asked about, and in which order, is that of `sort` of a list,
also for a question that holds of positions in no such way; an answer may fail, and then the search does.
-/

namespace EvalOrder.Sorting

variable {α ε : Type}

/-- The end of the positions from `lo` below `hi` for which `p` holds. -/
def bisect (p : Nat → Except ε Bool) (lo hi : Nat) : Except ε Nat :=
  if lo < hi then
    let mid := lo + (hi - lo) / 2
    match p mid with
    | .error e => .error e
    | .ok true => bisect p (mid + 1) hi
    | .ok false => bisect p lo mid
  else .ok lo
termination_by hi - lo

/-- The last of the distances 1, 3, 7, … below `most` up to which `p` holds, 0 if there is none, and the next one, or
`most` instead of a greater one. -/
def reach (p : Nat → Except ε Bool) (most near far : Nat) : Except ε (Nat × Nat) :=
  if far < most then
    match p far with
    | .error e => .error e
    | .ok true => reach p most far (2 * far + 1)
    | .ok false => .ok (near, far)
  else .ok (near, most)
termination_by most - far

/-- The answer turned round. -/
def negated : Except ε Bool → Except ε Bool
  | .ok b => .ok !b
  | .error e => .error e

/-- The number of first positions below `n` for which `p` holds, looked for from the position `hint`. -/
def gallop (p : Nat → Except ε Bool) (n hint : Nat) : Except ε Nat :=
  match p hint with
  | .error e => .error e
  | .ok true =>
    match reach (fun k => p (hint + k)) (n - hint) 0 1 with
    | .error e => .error e
    | .ok (near, far) => bisect p (hint + near + 1) (hint + far)
  | .ok false =>
    match reach (fun k => negated (p (hint - k))) (hint + 1) 0 1 with
    | .error e => .error e
    | .ok (near, far) => bisect p (hint + 1 - far) (hint - near)

/-- Whether `q` holds of the element at a position. -/
def holdsAt (q : α → Except ε Bool) (xs : Array α) (i : Nat) : Except ε Bool :=
  match xs[i]? with
  | some x => q x
  | none => .ok false

end EvalOrder.Sorting
