import EvalOrder.Sorting.Merge

/-!
# Sorting by runs

Model of `sort` of a list: a stable sort that makes use of the order that a list has already. The list is cut into the
runs that it begins with, one after the other; a run that is short is made longer by insertion. Runs are merged with
their neighbours so that lengths stay balanced: each border between two runs has a power, the first binary place in
which the middles of the two, as fractions of the whole list, differ; runs with a border of greater power are merged
before a run behind a border of less power is added.

The result is determined for every comparison, also for one that is no order or that fails: so it matters which elements
are compared, and in which order. Lists of fewer than 64 elements are one run. Keys and the reversed order are left out.

Results:
* `perm_runSort`: sorting rearranges the list, whether it fails or not.
-/

namespace EvalOrder.Sorting

variable {α ε : Type}

/-- A run that waits to be merged, and the power of the border behind it. -/
structure Waiting (α : Type) where
  run : List α
  power : Nat := 0

/-- The elements of runs that wait, the last run first. -/
def itemsOf (waiting : List (Waiting α)) : List α := (waiting.reverse.map (·.run)).flatten

/-- The length that runs are made to have in a list of `n` elements. A list of fewer than 64 elements is one run;
otherwise it is from 32 to 64, so that the number of runs is a power of two or a little less. -/
def leastRun (n : Nat) : Nat := go n n 0
where
  go : Nat → Nat → Nat → Nat
    | 0, n, odd => n + odd
    | steps + 1, n, odd => if n < 64 then n + odd else go steps (n / 2) (max odd (n % 2))

/-- The first binary place, from 1, in which `a / (2 * n)` and `b / (2 * n)` differ. -/
def differingPlace (n : Nat) : Nat → Nat → Nat → Nat
  | 0, _, _ => 1
  | steps + 1, a, b =>
    if n ≤ a then differingPlace n steps (2 * (a - n)) (2 * (b - n)) + 1
    else if n ≤ b then 1
    else differingPlace n steps (2 * a) (2 * b) + 1

/-- The power of the border between runs of `i` and `j` elements, with `before` elements in front of them, in a list
of `n` elements. -/
def borderPower (before i j n : Nat) : Nat :=
  let a := 2 * before + i
  differingPlace n n a (a + i + j)

/-- Runs that wait and the patience for the next merge, or a failure and what all of them are left as. -/
abbrev Settled (ε α : Type) := Except (ε × List α) (List (Waiting α) × Nat)

/-- Merge two runs that wait, with those in front of them and behind them. -/
def mergeWaiting (lt : α → α → Except ε Bool) (patience : Nat) (front : List (Waiting α)) (x y : List α)
    (behind : List (Waiting α)) : Settled ε α :=
  match mergeRuns lt patience x y with
  | (.ok xs, patience) => .ok (behind ++ ⟨xs, 0⟩ :: front, patience)
  | (.error (e, xs), _) => .error (e, itemsOf front ++ xs ++ itemsOf behind)

/-- Merge the last runs as long as the border between them has more than some power. -/
def settle (lt : α → α → Except ε Bool) (power : Nat) : Nat → Nat → List (Waiting α) → Settled ε α
  | 0, patience, waiting => .ok (waiting, patience)
  | steps + 1, patience, waiting =>
    match waiting with
    | y :: x :: front =>
      if power < x.power then
        match mergeWaiting lt patience front x.run y.run [] with
        | .error e => .error e
        | .ok (waiting, patience) => settle lt power steps patience waiting
      else .ok (waiting, patience)
    | _ => .ok (waiting, patience)

/-- Merge all runs, the last ones first; but the run before the last two is merged with the next if it is shorter than
the last. -/
def settleAll (lt : α → α → Except ε Bool) : Nat → Nat → List (Waiting α) → Settled ε α
  | 0, patience, waiting => .ok (waiting, patience)
  | steps + 1, patience, waiting =>
    match waiting with
    | z :: y :: x :: front =>
      let merged := if x.run.length < z.run.length
        then mergeWaiting lt patience front x.run y.run [z]
        else mergeWaiting lt patience (x :: front) y.run z.run []
      match merged with
      | .error e => .error e
      | .ok (waiting, patience) => settleAll lt steps patience waiting
    | [y, x] => mergeWaiting lt patience [] x.run y.run []
    | _ => .ok (waiting, patience)

/-- Add a run behind those that wait, in a list of `n` elements. -/
def addRun (lt : α → α → Except ε Bool) (n patience : Nat) (waiting : List (Waiting α)) (run : List α) :
    Settled ε α :=
  match waiting with
  | [] => .ok ([⟨run, 0⟩], patience)
  | last :: front =>
    let power := borderPower (itemsOf front).length last.run.length run.length n
    match settle lt power waiting.length patience waiting with
    | .error (e, xs) => .error (e, xs ++ run)
    | .ok ([], patience) => .ok ([⟨run, 0⟩], patience)
    | .ok (last :: front, patience) => .ok (⟨run, 0⟩ :: ⟨last.run, power⟩ :: front, patience)

/-- The next run of `x :: xs`, made longer if it is short, and the rest. -/
def nextRun (lt : α → α → Except ε Bool) (least : Nat) (x : α) (xs : List α) :
    Except (ε × List α) (List α × List α) :=
  match firstRun lt x xs with
  | .error e => .error (e, x :: xs)
  | .ok (run, rest) =>
    let n := least - run.length
    match insertAll lt run (rest.take n) with
    | .error (e, ys) => .error (e, ys ++ rest.drop n)
    | .ok run => .ok (run, rest.drop n)

/-- Sort what is left of a list of `n` elements after the runs that wait. -/
def sortRest (lt : α → α → Except ε Bool) (n : Nat) :
    Nat → Nat → List (Waiting α) → List α → Arranged ε α
  | 0, _, waiting, xs => .ok (itemsOf waiting ++ xs)
  | steps + 1, patience, waiting, xs =>
    match xs with
    | [] => (settleAll lt waiting.length patience waiting).map fun r => itemsOf r.1
    | x :: xs =>
      match nextRun lt (leastRun n) x xs with
      | .error (e, ys) => .error (e, itemsOf waiting ++ ys)
      | .ok (run, rest) =>
        match addRun lt n patience waiting run with
        | .error (e, ys) => .error (e, ys ++ rest)
        | .ok (waiting, patience) => sortRest lt n steps patience waiting rest

/-- Sort a list. -/
def runSort (lt : α → α → Except ε Bool) (xs : List α) : Arranged ε α :=
  sortRest lt xs.length (xs.length + 1) Merge.worthwhile [] xs

/-! ## The sorted list is the list rearranged -/

variable (lt : α → α → Except ε Bool)

@[simp] theorem itemsOf_nil : itemsOf ([] : List (Waiting α)) = [] := rfl

@[simp] theorem itemsOf_cons (w : Waiting α) (ws : List (Waiting α)) :
    itemsOf (w :: ws) = itemsOf ws ++ w.run := by
  simp [itemsOf]

theorem itemsOf_append (ws vs : List (Waiting α)) : itemsOf (ws ++ vs) = itemsOf vs ++ itemsOf ws := by
  simp [itemsOf]

/-- All elements of settled runs, or of what is left of them. -/
def Settled.items : Settled ε α → List α
  | .ok (waiting, _) => itemsOf waiting
  | .error (_, xs) => xs

theorem perm_mergeWaiting (patience : Nat) (front behind : List (Waiting α)) (x y : List α) :
    (mergeWaiting lt patience front x y behind).items.Perm
      (itemsOf front ++ (x ++ y) ++ itemsOf behind) := by
  have h := perm_mergeRuns lt patience x y
  unfold mergeWaiting
  split
  · rename_i xs _ hr
    rw [hr] at h
    simpa [Settled.items, Arranged.items, itemsOf_append] using
      (h.append_left (itemsOf front)).append_right (itemsOf behind)
  · rename_i e xs _ hr
    rw [hr] at h
    exact (h.append_left _).append_right _

theorem perm_settle (power : Nat) : ∀ (steps patience : Nat) (waiting : List (Waiting α)),
    (settle lt power steps patience waiting).items.Perm (itemsOf waiting)
  | 0, _, _ => List.Perm.refl _
  | steps + 1, patience, waiting => by
    unfold settle
    split
    · rename_i y x front
      split
      · have h := perm_mergeWaiting lt patience front [] x.run y.run
        simp only [itemsOf_nil, List.append_nil, ← List.append_assoc] at h
        rw [itemsOf_cons, itemsOf_cons]
        split
        · rename_i e hr
          rw [hr] at h
          exact h
        · rename_i ws p hr
          rw [hr] at h
          exact (perm_settle power steps p ws).trans h
      · exact List.Perm.refl _
    · exact List.Perm.refl _

theorem perm_settleAll : ∀ (steps patience : Nat) (waiting : List (Waiting α)),
    (settleAll lt steps patience waiting).items.Perm (itemsOf waiting)
  | 0, _, _ => List.Perm.refl _
  | steps + 1, patience, waiting => by
    unfold settleAll
    split
    · rename_i z y x front
      have h : (if x.run.length < z.run.length then mergeWaiting lt patience front x.run y.run [z]
          else mergeWaiting lt patience (x :: front) y.run z.run [] : Settled ε α).items.Perm
          (itemsOf (z :: y :: x :: front)) := by
        split
        · simpa using perm_mergeWaiting lt patience front [z] x.run y.run
        · simpa using perm_mergeWaiting lt patience (x :: front) [] y.run z.run
      simp only
      split
      · rename_i e hr
        rw [hr] at h
        exact h
      · rename_i ws p hr
        rw [hr] at h
        exact (perm_settleAll steps p ws).trans h
    · rename_i y x
      simpa using perm_mergeWaiting lt patience [] [] x.run y.run
    · exact List.Perm.refl _

theorem perm_addRun (n patience : Nat) (waiting : List (Waiting α)) (run : List α) :
    (addRun lt n patience waiting run).items.Perm (itemsOf waiting ++ run) := by
  unfold addRun
  split
  · simp [Settled.items]
  · rename_i last front
    have h := perm_settle lt (borderPower (itemsOf front).length last.run.length run.length n)
      (last :: front).length patience (last :: front)
    simp only
    split
    · rename_i e xs hr
      rw [hr] at h
      exact h.append_right run
    · rename_i p hr
      rw [hr] at h
      simpa [Settled.items] using h.append_right run
    · rename_i last' front' p hr
      rw [hr] at h
      simpa [Settled.items] using h.append_right run

theorem perm_nextRun (least : Nat) (x : α) (xs : List α) :
    (match nextRun lt least x xs with
      | .error (_, ys) => ys
      | .ok (run, rest) => run ++ rest).Perm (x :: xs) := by
  unfold nextRun
  cases hr : firstRun lt x xs with
  | error e => exact List.Perm.refl _
  | ok r =>
    obtain ⟨run, rest⟩ := r
    have h := perm_firstRun hr
    have hi := perm_insertAll lt (rest.take (least - run.length)) run
    have hrest : rest.take (least - run.length) ++ rest.drop (least - run.length) = rest :=
      List.take_append_drop _ _
    have hall := hi.append_right (rest.drop (least - run.length))
    rw [List.append_assoc, hrest] at hall
    simp only
    cases hs : insertAll lt run (rest.take (least - run.length)) with
    | error e =>
      rw [hs] at hall
      exact hall.trans h
    | ok ys =>
      rw [hs] at hall
      exact hall.trans h

theorem perm_sortRest (n : Nat) : ∀ (steps patience : Nat) (waiting : List (Waiting α)) (xs : List α),
    (sortRest lt n steps patience waiting xs).items.Perm (itemsOf waiting ++ xs)
  | 0, _, _, _ => List.Perm.refl _
  | steps + 1, patience, waiting, xs => by
    unfold sortRest
    split
    · have h := perm_settleAll lt waiting.length patience waiting
      rw [List.append_nil]
      cases hr : settleAll lt waiting.length patience waiting with
      | error e =>
        rw [hr] at h
        exact h
      | ok r =>
        rw [hr] at h
        exact h
    · rename_i x xs
      have h := perm_nextRun lt (leastRun n) x xs
      split
      · rename_i e ys hr
        rw [hr] at h
        exact h.append_left _
      · rename_i run rest hr
        rw [hr] at h
        have ha := perm_addRun lt n patience waiting run
        have hall : (itemsOf waiting ++ run ++ rest).Perm (itemsOf waiting ++ x :: xs) := by
          rw [List.append_assoc]
          exact h.append_left _
        split
        · rename_i e ys hs
          rw [hs] at ha
          exact (ha.append_right rest).trans hall
        · rename_i ws p hs
          rw [hs] at ha
          exact (perm_sortRest n steps p ws rest).trans ((ha.append_right rest).trans hall)

/-- Sorting rearranges the list. -/
theorem perm_runSort (xs : List α) : (runSort lt xs).items.Perm xs :=
  perm_sortRest lt _ _ _ _ _

end EvalOrder.Sorting
