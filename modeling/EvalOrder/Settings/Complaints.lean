import EvalOrder.Settings.Schema
import EvalOrder.Sorting.RunSort

/-!
# Complaints in order

How complaints are put together is no matter of the schema: it is a parameter (`Collect`), of which a check of settings
relies on two things (`Collect.Lawful`). What is put together are the complaints that were drawn; and that fails only
for two keys of which neither is known to come before the other.

`Complaints.collected` is the way of the validator whose schema `Schema` is. It puts each complaint in its place when it
comes up, by sorting all that there are by their keys. Complaints about unknown keys are also sorted by themselves. Keys
that have no order, such as a date and a number, cannot be complained about together, unless one never meets the other
while they are sorted.

Results:
* `perm_of_addAll`: what is put together are the complaints that were drawn.
-/

namespace EvalOrder

open Text (Points)

/-- Two keys that have no order. -/
structure Unordered where
  left : Value
  right : Value

/-- A way to put complaints together. -/
abbrev Collect := List (Value × Complaint) → Except Unordered (List (Value × Complaint))

/-- What a check relies on. -/
structure Collect.Lawful (collect : Collect) : Prop where
  perm : ∀ {drawn cs}, collect drawn = .ok cs → cs.Perm drawn
  unordered : ∀ {drawn u}, collect drawn = .error u →
    u.left ∈ drawn.map Prod.fst ∧ u.right ∈ drawn.map Prod.fst ∧ u.left.less? u.right = none

/-- Complaints in the order of their keys, and those about unknown keys, which are also kept by themselves. -/
structure Complaints where
  all : List (Value × Complaint) := []
  unknown : List (Value × Complaint) := []

namespace Complaints

/-- The order of keys in a list of complaints: integers by value, and texts by code points; either is before keys
of any other kind. Those are compared as scalars are. -/
def keyBefore (a b : Value) : Except Unordered Bool :=
  match a, a.asInt? with
  | _, some m => .ok (match b.asInt? with
    | some n => m < n
    | none => true)
  | .text s, none => .ok (match b with
    | .text t => Points.before s t
    | _ => true)
  | a, none => match a.less? b with
    | some less => .ok less
    | none => .error ⟨a, b⟩

/-- The order of complaints is that of their keys. -/
def before (a b : Value × Complaint) : Except Unordered Bool := keyBefore a.1 b.1

/-- Put complaints in order. -/
def sort (cs : List (Value × Complaint)) : Sorting.Arranged Unordered (Value × Complaint) :=
  Sorting.runSort before cs

/-- Add a complaint. One about a number that is too small is kept also when its key has no order among the others;
they are left as the sorting leaves them. -/
def add (cs : Complaints) (c : Value × Complaint) : Except Unordered Complaints :=
  match sort (cs.all ++ [c]), c.2 with
  | .error (_, all), .tooSmall _ => .ok { cs with all }
  | .error (e, _), _ => .error e
  | .ok all, .unknownField =>
    match sort (cs.unknown ++ [c]) with
    | .error (e, _) => .error e
    | .ok unknown => .ok { all, unknown }
  | .ok all, _ => .ok { cs with all }

/-- Add complaints, one after the other. -/
def addAll (cs : Complaints) : List (Value × Complaint) → Except Unordered Complaints
  | [] => .ok cs
  | c :: more =>
    match cs.add c with
    | .error e => .error e
    | .ok cs => cs.addAll more

/-- The complaints that were drawn, in the order of their keys. -/
def collected : Collect := fun drawn => (({} : Complaints).addAll drawn).map (·.all)

theorem perm_of_add {cs cs' : Complaints} {c : Value × Complaint} (h : cs.add c = .ok cs') :
    cs'.all.Perm (cs.all ++ [c]) := by
  have hs : (sort (cs.all ++ [c])).items.Perm (cs.all ++ [c]) := Sorting.perm_runSort _ _
  unfold add at h
  split at h
  · rename_i hr _
    rw [hr] at hs
    cases h
    exact hs
  · cases h
  · rename_i hr _
    rw [hr] at hs
    split at h
    · cases h
    · cases h
      exact hs
  · rename_i hr _
    rw [hr] at hs
    cases h
    exact hs

theorem perm_of_addAll : ∀ {more : List (Value × Complaint)} {cs cs' : Complaints},
    cs.addAll more = .ok cs' → cs'.all.Perm (cs.all ++ more)
  | [], cs, _, h => by
    cases h
    simp
  | c :: more, cs, cs', h => by
    unfold addAll at h
    split at h
    · cases h
    · rename_i hc
      refine (perm_of_addAll h).trans ?_
      rw [List.append_cons]
      exact (perm_of_add hc).append_right more

theorem perm_of_collected {drawn cs : List (Value × Complaint)} (h : collected drawn = .ok cs) : cs.Perm drawn := by
  unfold collected at h
  cases hadd : ({} : Complaints).addAll drawn with
  | error e =>
    rw [hadd] at h
    cases h
  | ok sorted =>
    rw [hadd] at h
    cases h
    exact perm_of_addAll hadd

end Complaints

end EvalOrder
