import EvalOrder.Sorting.Run

/-!
# Merging runs

Two runs that follow one another are merged into one, as `sort` of a list does. What is in its place already is left
out: the elements of the first run that are not greater than the first of the second, and those of the second that are
not less than the last of the first. Of what remains the shorter part is set aside, and the merged run grows into its
place: from the front if that is the first part, from the back if it is the second.

Elements are taken one by one until one part has given several in a row, and then by stretches, whose lengths are found
by galloping, until they become short. How many in a row it takes is learned on the way: every further stretch makes it
one fewer, and giving up stretches one more.

Results:
* `perm_mergeRuns`: merging rearranges the two runs, whether it fails or not.
-/

namespace EvalOrder.Sorting

variable {α ε : Type}

/-- Where a merged run grows from: from the front, with the first part set aside, or from the back, with the second
part set aside. -/
inductive Direction where
  | forward
  | backward
  deriving DecidableEq, Repr

/-- A merge under way: what was taken, the last first, and what is left of either part, each from the end that the
merge goes on with. -/
structure Merge (α : Type) where
  taken : List α := []
  first : List α
  second : List α

/-- Why a merge is over. The elements come in the order in which they were taken. -/
inductive Stop (ε α : Type) where
  | merged (items : List α)
  | failed (e : ε) (items : List α)

/-- All elements. -/
def Stop.items : Stop ε α → List α
  | merged xs => xs
  | failed _ xs => xs

namespace Direction

/-- The next element of the second part is taken before the next one of the first. -/
def takesSecond (lt : α → α → Except ε Bool) (d : Direction) (a b : α) : Except ε Bool :=
  match d with
  | forward => lt b a
  | backward => negated (lt b a)

/-- The number of first elements for which `q` holds. -/
def leading (d : Direction) (q : α → Except ε Bool) (xs : List α) : Except ε Nat :=
  match d with
  | forward => gallop (holdsAt q xs.toArray) xs.length 0
  | backward =>
    let stays := holdsAt (fun x => negated (q x)) xs.reverse.toArray
    (gallop stays xs.length (xs.length - 1)).map (xs.length - ·)

/-- What is left when a merge fails: the part that is set aside goes first. -/
def leftOver (d : Direction) (first second : List α) : List α :=
  match d with
  | forward => first ++ second
  | backward => second ++ first

/-- What completes a merge, when nothing is left to compare: either part is used up, or one element is left of the
part that is set aside, which goes last. -/
def completion? (d : Direction) (first second : List α) : Option (List α) :=
  match d, first, second with
  | _, first, [] => some first
  | _, [], second => some second
  | forward, [a], second => some (second ++ [a])
  | backward, first, [b] => some (first ++ [b])
  | _, _, _ => none

end Direction

namespace Merge

/-- All elements. -/
def items (m : Merge α) : List α := m.taken.reverse ++ (m.first ++ m.second)

def takeFirst (m : Merge α) (n : Nat) : Merge α :=
  { m with taken := (m.first.take n).reverse ++ m.taken, first := m.first.drop n }

def takeSecond (m : Merge α) (n : Nat) : Merge α :=
  { m with taken := (m.second.take n).reverse ++ m.taken, second := m.second.drop n }

/-- Stop when the merge is complete. -/
def unlessComplete (d : Direction) (m : Merge α) : Except (Stop ε α) (Merge α) :=
  match d.completion? m.first m.second with
  | some rest => .error (.merged (m.taken.reverse ++ rest))
  | none => .ok m

/-- Stop when an answer fails. -/
def unlessFailed {β : Type} (d : Direction) (m : Merge α) : Except ε β → Except (Stop ε α) β
  | .ok b => .ok b
  | .error e => .error (.failed e (m.taken.reverse ++ d.leftOver m.first m.second))

/-- Take one element; `true` when it is of the second part. -/
def single (lt : α → α → Except ε Bool) (d : Direction) (m : Merge α) :
    Except (Stop ε α) (Bool × Merge α) := do
  let ofSecond ← m.unlessFailed d (match m.first, m.second with
    | a :: _, b :: _ => d.takesSecond lt a b
    | _, _ => .ok false)
  let m ← (if ofSecond then m.takeSecond 1 else m.takeFirst 1).unlessComplete d
  return (ofSecond, m)

/-- Take a stretch of the first part that goes before the next element of the second, and that element. -/
def stretchOfFirst (lt : α → α → Except ε Bool) (d : Direction) (m : Merge α) :
    Except (Stop ε α) (Nat × Merge α) := do
  let n ← m.unlessFailed d (match m.second with
    | b :: _ => d.leading (fun a => negated (d.takesSecond lt a b)) m.first
    | [] => .ok 0)
  let m ← (m.takeFirst n).unlessComplete d
  let m ← (m.takeSecond 1).unlessComplete d
  return (n, m)

/-- Take a stretch of the second part that goes before the next element of the first, and that element. -/
def stretchOfSecond (lt : α → α → Except ε Bool) (d : Direction) (m : Merge α) :
    Except (Stop ε α) (Nat × Merge α) := do
  let n ← m.unlessFailed d (match m.first with
    | a :: _ => d.leading (fun b => d.takesSecond lt a b) m.second
    | [] => .ok 0)
  let m ← (m.takeSecond n).unlessComplete d
  let m ← (m.takeFirst 1).unlessComplete d
  return (n, m)

/-- The least length of a stretch that is worth galloping for. -/
def worthwhile : Nat := 7

/-- How elements are taken: one by one, of which so many in a row were of the first or of the second part, or by
stretches. -/
inductive Mode where
  | single (ofFirst ofSecond : Nat)
  | stretches

/-- Take elements in a mode, which is given up for stretches after `patience` elements of one part in a row, until the
merge is over; with the patience that is then left. Every step takes an element, so as many steps are enough. -/
def run (lt : α → α → Except ε Bool) (d : Direction) :
    Nat → Mode → (patience : Nat) → Merge α → Stop ε α × Nat
  | 0, _, patience, m => (.merged m.items, patience)
  | steps + 1, .single ofFirst ofSecond, patience, m =>
    match m.single lt d with
    | .error stop => (stop, patience)
    | .ok (isSecond, m) =>
      let ofFirst := if isSecond then 0 else ofFirst + 1
      let ofSecond := if isSecond then ofSecond + 1 else 0
      if patience ≤ ofFirst ∨ patience ≤ ofSecond then run lt d steps .stretches patience m
      else run lt d steps (.single ofFirst ofSecond) patience m
  | steps + 1, .stretches, patience, m =>
    match m.stretchOfFirst lt d with
    | .error stop => (stop, patience)
    | .ok (n, m) =>
      match m.stretchOfSecond lt d with
      | .error stop => (stop, patience)
      | .ok (k, m) =>
        if worthwhile ≤ n ∨ worthwhile ≤ k then
          run lt d steps .stretches (if 1 < patience then patience - 1 else patience) m
        else run lt d steps (.single 0 0) (patience + 1) m

end Merge

/-- Merge parts, of which it is known where the merge begins: with the second part from the front, and with the first
from the back. -/
def mergeParts (lt : α → α → Except ε Bool) (d : Direction) (patience : Nat) (first second : List α) :
    Stop ε α × Nat :=
  let m : Merge α := { first, second }
  let begun := match d with
    | .forward => m.takeSecond 1
    | .backward => m.takeFirst 1
  match begun.unlessComplete d with
  | .error stop => (stop, patience)
  | .ok m => m.run lt d (first.length + second.length) (.single 0 0) patience

/-- The arrangement that a merge leaves. -/
def Stop.arranged (d : Direction) : Stop ε α → Arranged ε α
  | merged xs => .ok (match d with
    | .forward => xs
    | .backward => xs.reverse)
  | failed e xs => .error (e, match d with
    | .forward => xs
    | .backward => xs.reverse)

/-- Merge the parts of two runs that are not in their places. -/
def mergeRest (lt : α → α → Except ε Bool) (patience : Nat) (first second : List α) : Arranged ε α × Nat :=
  let d := if first.length ≤ second.length then Direction.forward else Direction.backward
  let (stop, patience) := match d with
    | .forward => mergeParts lt d patience first second
    | .backward => mergeParts lt d patience first.reverse second.reverse
  (stop.arranged d, patience)

/-- Merge two runs that follow one another; with the patience that is then left. -/
def mergeRuns (lt : α → α → Except ε Bool) (patience : Nat) (xs ys : List α) : Arranged ε α × Nat :=
  let inPlace := match ys with
    | y :: _ => gallop (holdsAt (fun x => negated (lt y x)) xs.toArray) xs.length 0
    | [] => .ok xs.length
  match inPlace with
  | .error e => (.error (e, xs ++ ys), patience)
  | .ok n =>
    let reached := match (xs.drop n).getLast? with
      | some x => gallop (holdsAt (fun y => lt y x) ys.toArray) ys.length (ys.length - 1)
      | none => .ok 0
    match reached with
    | .error e => (.error (e, xs ++ ys), patience)
    | .ok 0 => (.ok (xs ++ ys), patience)
    | .ok k =>
      let (r, patience) := mergeRest lt patience (xs.drop n) (ys.take k)
      (r.within (xs.take n) (ys.drop k), patience)

/-! ## A merged run is the two runs rearranged -/

namespace Merge

variable (lt : α → α → Except ε Bool) {d : Direction}

theorem perm_takeFirst (m : Merge α) (n : Nat) : (m.takeFirst n).items.Perm m.items := by
  have h : m.first.take n ++ m.first.drop n = m.first := List.take_append_drop n m.first
  simp only [items, takeFirst, List.reverse_append, List.reverse_reverse, List.append_assoc]
  rw [← List.append_assoc (m.first.take n), h]

theorem perm_takeSecond (m : Merge α) (n : Nat) : (m.takeSecond n).items.Perm m.items := by
  have h : m.second.take n ++ m.second.drop n = m.second := List.take_append_drop n m.second
  simp only [items, takeSecond, List.reverse_append, List.reverse_reverse, List.append_assoc]
  refine List.Perm.append_left _ ?_
  refine (List.perm_append_comm_assoc _ _ _).trans ?_
  rw [h]

/-- What a step keeps: the elements, whether it stops or not. -/
def Keeps {β : Type} (xs : List α) (view : β → List α) : Except (Stop ε α) β → Prop
  | .ok b => (view b).Perm xs
  | .error stop => stop.items.Perm xs

theorem Keeps.bind {β γ : Type} {xs : List α} {view : β → List α} {view' : γ → List α}
    {r : Except (Stop ε α) β} {f : β → Except (Stop ε α) γ} (h : Keeps xs view r)
    (hf : ∀ b, (view b).Perm xs → Keeps xs view' (f b)) : Keeps xs view' (r >>= f) := by
  cases r with
  | error stop => exact h
  | ok b => exact hf b h

theorem perm_of_completion? {first second rest : List α} (h : d.completion? first second = some rest) :
    rest.Perm (first ++ second) := by
  unfold Direction.completion? at h
  split at h
  · cases h
    simp
  · cases h
    simp
  · cases h
    exact List.perm_append_comm
  · cases h
    exact List.Perm.refl _
  · cases h

theorem keeps_unlessComplete {xs : List α} {m : Merge α} (h : m.items.Perm xs) :
    Keeps xs items (m.unlessComplete d : Except (Stop ε α) (Merge α)) := by
  unfold unlessComplete
  split
  · rename_i rest hr
    exact (List.Perm.append_left _ (perm_of_completion? hr)).trans h
  · exact h

theorem keeps_unlessFailed {β : Type} {m : Merge α} (r : Except ε β) :
    Keeps m.items (fun _ => m.items) (m.unlessFailed d r) := by
  cases r with
  | ok b => exact List.Perm.refl _
  | error e =>
    refine List.Perm.append_left _ ?_
    cases d
    · exact List.Perm.refl _
    · exact List.perm_append_comm

theorem keeps_single (m : Merge α) : Keeps m.items (fun r => r.2.items) (m.single lt d) := by
  refine (keeps_unlessFailed _).bind fun ofSecond _ => ?_
  have ht : (if ofSecond then m.takeSecond 1 else m.takeFirst 1).items.Perm m.items := by
    split
    · exact m.perm_takeSecond 1
    · exact m.perm_takeFirst 1
  exact (keeps_unlessComplete ht).bind fun m' hm => hm

theorem keeps_stretchOfFirst (m : Merge α) :
    Keeps m.items (fun r => r.2.items) (m.stretchOfFirst lt d) := by
  refine (keeps_unlessFailed _).bind fun n _ => ?_
  refine (keeps_unlessComplete (m.perm_takeFirst n)).bind fun m' hm => ?_
  exact (keeps_unlessComplete ((m'.perm_takeSecond 1).trans hm)).bind fun _ h => h

theorem keeps_stretchOfSecond (m : Merge α) :
    Keeps m.items (fun r => r.2.items) (m.stretchOfSecond lt d) := by
  refine (keeps_unlessFailed _).bind fun n _ => ?_
  refine (keeps_unlessComplete (m.perm_takeSecond n)).bind fun m' hm => ?_
  exact (keeps_unlessComplete ((m'.perm_takeFirst 1).trans hm)).bind fun _ h => h

theorem perm_run : ∀ (steps : Nat) (mode : Mode) (patience : Nat) (m : Merge α),
    (run lt d steps mode patience m).1.items.Perm m.items
  | 0, _, _, m => List.Perm.refl _
  | steps + 1, .single ofFirst ofSecond, patience, m => by
    have h := keeps_single lt (d := d) m
    unfold run
    split
    · rename_i stop hs
      rw [hs] at h
      exact h
    · rename_i r m' hs
      rw [hs] at h
      have ih (mode : Mode) : (run lt d steps mode patience m').1.items.Perm m.items :=
        (perm_run steps mode patience m').trans h
      simp only
      split <;> split <;> exact ih _
  | steps + 1, .stretches, patience, m => by
    have h := keeps_stretchOfFirst lt (d := d) m
    unfold run
    split
    · rename_i stop hs
      rw [hs] at h
      exact h
    · rename_i n m' hs
      rw [hs] at h
      have h' := keeps_stretchOfSecond lt (d := d) m'
      split
      · rename_i stop hs'
        rw [hs'] at h'
        exact h'.trans h
      · rename_i k m'' hs'
        rw [hs'] at h'
        split
        · exact (perm_run steps _ _ _).trans (h'.trans h)
        · exact (perm_run steps _ _ _).trans (h'.trans h)

end Merge

variable (lt : α → α → Except ε Bool)

theorem perm_mergeParts (d : Direction) (patience : Nat) (first second : List α) :
    (mergeParts lt d patience first second).1.items.Perm (first ++ second) := by
  let m : Merge α := { first, second }
  have hbegun : (match d with
      | .forward => m.takeSecond 1
      | .backward => m.takeFirst 1).items.Perm (first ++ second) := by
    cases d
    · exact m.perm_takeSecond 1
    · exact m.perm_takeFirst 1
  have h := Merge.keeps_unlessComplete (ε := ε) (d := d) hbegun
  unfold mergeParts
  simp only
  split
  · rename_i stop hs
    rw [hs] at h
    exact h
  · rename_i m' hs
    rw [hs] at h
    exact (Merge.perm_run _ _ _ _ _).trans h

theorem perm_arranged (d : Direction) (stop : Stop ε α) : (stop.arranged d).items.Perm stop.items := by
  cases stop <;> cases d
  · exact List.Perm.refl _
  · exact List.reverse_perm _
  · exact List.Perm.refl _
  · exact List.reverse_perm _

theorem perm_mergeRest (patience : Nat) (first second : List α) :
    (mergeRest lt patience first second).1.items.Perm (first ++ second) := by
  unfold mergeRest
  simp only
  refine (perm_arranged _ _).trans ?_
  split
  · exact perm_mergeParts _ _ _ _ _
  · refine (perm_mergeParts _ _ _ _ _).trans ?_
    exact (List.reverse_perm _).append (List.reverse_perm _)

theorem perm_mergeRuns (patience : Nat) (xs ys : List α) :
    (mergeRuns lt patience xs ys).1.items.Perm (xs ++ ys) := by
  unfold mergeRuns
  simp only
  split
  · exact List.Perm.refl _
  · rename_i n _
    split
    · exact List.Perm.refl _
    · exact List.Perm.refl _
    · rename_i k _ _
      rw [Arranged.items_within]
      refine (((perm_mergeRest _ _ _ _).append_left _).append_right _).trans ?_
      have hx : xs.take n ++ xs.drop n = xs := List.take_append_drop n xs
      have hy : ys.take k ++ ys.drop k = ys := List.take_append_drop k ys
      rw [List.append_assoc, List.append_assoc, hy, ← List.append_assoc, hx]

end EvalOrder.Sorting
