import EvalOrder.Sorting.Search

/-!
# Runs

A run is a stretch of a list that is in order. The run that a list begins with is kept, reversed if it strictly
descends; elements are inserted into a run by bisection, after those that they are not less than.

Comparing may fail, and what is being arranged is then left as it is: a failure comes with the arrangement that it
leaves.

Results:
* `perm_firstRun`, `perm_insertAll`: runs are found and made by rearranging, whether that fails or not.
-/

namespace EvalOrder.Sorting

variable {α ε : Type}

/-- A list rearranged, or why that failed and how far it came. -/
abbrev Arranged (ε α : Type) := Except (ε × List α) (List α)

/-- The list, complete or not. -/
def Arranged.items : Arranged ε α → List α
  | .ok xs => xs
  | .error (_, xs) => xs

/-- The list with what stands before and after it. -/
def Arranged.within (front back : List α) : Arranged ε α → Arranged ε α
  | .ok xs => .ok (front ++ xs ++ back)
  | .error (e, xs) => .error (e, front ++ xs ++ back)

theorem Arranged.items_within (front back : List α) (r : Arranged ε α) :
    (r.within front back).items = front ++ r.items ++ back := by
  cases r <;> rfl

/-- Split off the longest beginning of `x :: xs` in which no element is less than the one before. -/
def ascent (lt : α → α → Except ε Bool) (x : α) : List α → Except ε (List α × List α)
  | [] => .ok ([x], [])
  | y :: ys =>
    match lt y x with
    | .error e => .error e
    | .ok true => .ok ([x], y :: ys)
    | .ok false => (ascent lt y ys).map fun (run, rest) => (x :: run, rest)

/-- Split off the longest beginning of `x :: xs` in which each element is less than the one before. -/
def descent (lt : α → α → Except ε Bool) (x : α) : List α → Except ε (List α × List α)
  | [] => .ok ([x], [])
  | y :: ys =>
    match lt y x with
    | .error e => .error e
    | .ok true => (descent lt y ys).map fun (run, rest) => (x :: run, rest)
    | .ok false => .ok ([x], y :: ys)

/-- The first run of `x :: xs`, ascending, and the rest. -/
def firstRun (lt : α → α → Except ε Bool) (x : α) : List α → Except ε (List α × List α)
  | [] => .ok ([x], [])
  | y :: ys =>
    match lt y x with
    | .error e => .error e
    | .ok true => (descent lt y ys).map fun (run, rest) => ((x :: run).reverse, rest)
    | .ok false => (ascent lt y ys).map fun (run, rest) => (x :: run, rest)

/-- The place of `x` in a run: after the elements that it is not less than. -/
def placeOf (lt : α → α → Except ε Bool) (run : List α) (x : α) : Except ε Nat :=
  bisect (holdsAt (fun y => negated (lt x y)) run.toArray) 0 run.length

/-- Insert elements into a run, one after the other. -/
def insertAll (lt : α → α → Except ε Bool) (run : List α) : List α → Arranged ε α
  | [] => .ok run
  | x :: xs =>
    match placeOf lt run x with
    | .error e => .error (e, run ++ x :: xs)
    | .ok i => insertAll lt (run.take i ++ x :: run.drop i) xs

/-! ## A run is part of the list rearranged -/

variable {lt : α → α → Except ε Bool}

theorem eq_of_ascent : ∀ {xs : List α} {x : α} {r : List α × List α},
    ascent lt x xs = .ok r → r.1 ++ r.2 = x :: xs
  | [], _, _, h => by
    cases h
    rfl
  | y :: ys, x, r, h => by
    unfold ascent at h
    split at h
    · cases h
    · cases h
      rfl
    · cases hr : ascent lt y ys with
      | error e => rw [hr] at h; cases h
      | ok s =>
        rw [hr] at h
        cases h
        simpa using eq_of_ascent hr

theorem eq_of_descent : ∀ {xs : List α} {x : α} {r : List α × List α},
    descent lt x xs = .ok r → r.1 ++ r.2 = x :: xs
  | [], _, _, h => by
    cases h
    rfl
  | y :: ys, x, r, h => by
    unfold descent at h
    split at h
    · cases h
    · cases hr : descent lt y ys with
      | error e => rw [hr] at h; cases h
      | ok s =>
        rw [hr] at h
        cases h
        simpa using eq_of_descent hr
    · cases h
      rfl

theorem perm_firstRun {x : α} : ∀ {xs : List α} {r : List α × List α},
    firstRun lt x xs = .ok r → (r.1 ++ r.2).Perm (x :: xs)
  | [], _, h => by
    cases h
    exact List.Perm.refl _
  | y :: ys, r, h => by
    simp only [firstRun] at h
    split at h
    · cases h
    · cases hr : descent lt y ys with
      | error e => rw [hr] at h; cases h
      | ok s =>
        rw [hr] at h
        cases h
        refine ((List.reverse_perm _).append_right _).trans ?_
        rw [List.cons_append, eq_of_descent hr]
    · cases hr : ascent lt y ys with
      | error e => rw [hr] at h; cases h
      | ok s =>
        rw [hr] at h
        cases h
        rw [List.cons_append, eq_of_ascent hr]

theorem perm_insertAll (lt : α → α → Except ε Bool) :
    ∀ (xs run : List α), (insertAll lt run xs).items.Perm (run ++ xs)
  | [], run => by simp [insertAll, Arranged.items]
  | x :: xs, run => by
    unfold insertAll
    split
    · exact List.Perm.refl _
    · rename_i i _
      refine (perm_insertAll lt xs _).trans ?_
      refine (List.Perm.append_right xs List.perm_middle).trans ?_
      rw [List.take_append_drop, List.cons_append]
      exact List.perm_middle.symm

end EvalOrder.Sorting
