import EvalOrder.Distinct
import Mathlib.Data.List.Nodup

/-!
# More on lists without repeats

How `distinct` goes together with maps and with lists of lists, and what it leaves out.

Results:
* `distinct_map`: values and their images are met in the same order.
* `distinct_flatten`: nothing is lost when the parts of a list are made distinct first.
* `distinct_eq_eraseDups`: of each value the first stays.
* `distinct_eq_fresh`: a value is left out if it was met before.
* `addAll_eq_append_filter`: what a list brings to another.
* `distinct_flatten_replicate`: a list over again brings nothing new.
-/

namespace EvalOrder

variable {α β : Type} [DecidableEq α] [DecidableEq β]

theorem addNew_map (f : α → β) {xs : List α} {y : α} (h : ∀ x ∈ xs, f x = f y → x = y) :
    addNew (xs.map f) (f y) = (addNew xs y).map f := by
  unfold addNew
  by_cases hy : y ∈ xs
  · rw [if_pos hy, if_pos (List.mem_map_of_mem hy)]
  · have hfy : f y ∉ xs.map f := by
      intro hm
      obtain ⟨x, hx, hxy⟩ := List.mem_map.mp hm
      exact hy (h x hx hxy ▸ hx)
    rw [if_neg hy, if_neg hfy, List.map_append, List.map_singleton]

/-- Values and their images are collected in the same order, if no two have one image. -/
theorem addAll_map (f : α → β) (xs ys : List α) (h : ∀ x ∈ xs ++ ys, ∀ y ∈ xs ++ ys, f x = f y → x = y) :
    addAll (xs.map f) (ys.map f) = (addAll xs ys).map f := by
  induction ys generalizing xs with
  | nil => rfl
  | cons y ys ih =>
    have hnew : addNew (xs.map f) (f y) = (addNew xs y).map f :=
      addNew_map f fun x hx => h x (List.mem_append_left _ hx) y (by simp)
    have hmem : ∀ x ∈ addNew xs y ++ ys, x ∈ xs ++ y :: ys := by simp [mem_addNew, or_assoc]
    have hrest := ih (addNew xs y) fun x hx z hz => h x (hmem x hx) z (hmem z hz)
    rw [← hnew] at hrest
    exact hrest

/-- Values and their images are met in the same order, if no two have one image. -/
theorem distinct_map (f : α → β) {xs : List α} (h : ∀ x ∈ xs, ∀ y ∈ xs, f x = f y → x = y) :
    distinct (xs.map f) = (distinct xs).map f :=
  addAll_map f [] xs h

theorem addAll_addNew (xs zs : List α) (y : α) : addAll xs (addNew zs y) = addNew (addAll xs zs) y := by
  by_cases hy : y ∈ zs
  · have hadd : y ∈ addAll xs zs := mem_addAll.mpr (.inr hy)
    rw [addNew, if_pos hy, addNew, if_pos hadd]
  · rw [addNew, if_neg hy, addAll_append]
    rfl

theorem addAll_addAll (xs zs ys : List α) : addAll xs (addAll zs ys) = addAll (addAll xs zs) ys := by
  induction ys generalizing zs with
  | nil => rfl
  | cons y ys ih =>
    have hstep := ih (addNew zs y)
    rw [addAll_addNew] at hstep
    exact hstep

/-- Nothing is lost when the parts are made distinct first. -/
theorem distinct_flatten (groups : List (List α)) :
    distinct (groups.map distinct).flatten = distinct groups.flatten := by
  have hstep : ∀ acc : List α, addAll acc (groups.map distinct).flatten = addAll acc groups.flatten := by
    induction groups with
    | nil => intro acc; rfl
    | cons group groups ih =>
      intro acc
      rw [List.map_cons, List.flatten_cons, List.flatten_cons, addAll_append, addAll_append, ih]
      exact congrArg (addAll · groups.flatten) (addAll_addAll acc [] group)
  exact hstep []

/-- Of each value the first stays. -/
theorem distinct_eq_eraseDups (xs : List α) : distinct xs = xs.eraseDups := by
  have hstep : ∀ acc : List α, addAll acc xs = acc ++ (xs.filter (· ∉ acc)).eraseDups := by
    induction xs with
    | nil => intro acc; simp [addAll]
    | cons x xs ih =>
      intro acc
      have hcons : addAll acc (x :: xs) = addAll (addNew acc x) xs := rfl
      rw [hcons, ih]
      by_cases hx : x ∈ acc
      · rw [addNew, if_pos hx, List.filter_cons_of_neg (by simpa using hx)]
      · rw [addNew, if_neg hx, List.filter_cons_of_pos (by simpa using hx), List.eraseDups_cons,
          List.filter_filter, List.append_assoc, List.singleton_append]
        congr 4
        funext y
        by_cases hy : y = x <;> simp [hy]
  have hnil : xs.filter (· ∉ ([] : List α)) = xs := List.filter_eq_self.mpr (by simp)
  rw [distinct, hstep, hnil, List.nil_append]

/-! ## What is left out -/

/-- The members of a list that are not in `seen`, each once. -/
def fresh (seen : List α) : List α → List α
  | [] => []
  | x :: xs => if x ∈ seen then fresh seen xs else x :: fresh (seen ++ [x]) xs

theorem fresh_of_mem {seen : List α} {x : α} (h : x ∈ seen) (xs : List α) : fresh seen (x :: xs) = fresh seen xs :=
  if_pos h

theorem fresh_of_not_mem {seen : List α} {x : α} (h : x ∉ seen) (xs : List α) :
    fresh seen (x :: xs) = x :: fresh (seen ++ [x]) xs :=
  if_neg h

theorem addAll_eq_append_fresh (seen xs : List α) : addAll seen xs = seen ++ fresh seen xs := by
  induction xs generalizing seen with
  | nil => exact (List.append_nil seen).symm
  | cons x xs ih =>
    have hcons : addAll seen (x :: xs) = addAll (addNew seen x) xs := rfl
    rw [hcons, ih]
    by_cases hx : x ∈ seen
    · rw [addNew, if_pos hx, fresh_of_mem hx]
    · rw [addNew, if_neg hx, fresh_of_not_mem hx, List.append_assoc, List.singleton_append]

/-- A value is left out if it was met before. -/
theorem distinct_eq_fresh (xs : List α) : distinct xs = fresh [] xs :=
  addAll_eq_append_fresh [] xs

theorem fresh_of_subset {seen xs : List α} (h : xs ⊆ seen) : fresh seen xs = [] := by
  induction xs with
  | nil => rfl
  | cons x xs ih =>
    obtain ⟨hx, hxs⟩ := List.cons_subset.mp h
    rw [fresh_of_mem hx, ih hxs]

theorem fresh_of_nodup {xs : List α} (hxs : xs.Nodup) (seen : List α) : fresh seen xs = xs.filter (· ∉ seen) := by
  induction xs generalizing seen with
  | nil => rfl
  | cons x xs ih =>
    obtain ⟨hx, hxs⟩ := List.nodup_cons.mp hxs
    by_cases hseen : x ∈ seen
    · rw [fresh_of_mem hseen, ih hxs, List.filter_cons_of_neg (by simpa using hseen)]
    · rw [fresh_of_not_mem hseen, ih hxs, List.filter_cons_of_pos (by simpa using hseen)]
      refine congrArg (x :: ·) (List.filter_congr fun y hy => ?_)
      have hne : y ≠ x := fun h => hx (h ▸ hy)
      simp [hne]

/-- What a list brings is each of its values that was not there, in the order they are first met. -/
theorem addAll_eq_append_filter (seen xs : List α) :
    addAll seen xs = seen ++ (distinct xs).filter (· ∉ seen) := by
  calc
    addAll seen xs = addAll seen (distinct xs) := (addAll_addAll seen [] xs).symm
    _ = seen ++ (distinct xs).filter (· ∉ seen) := by
      rw [addAll_eq_append_fresh, fresh_of_nodup (nodup_distinct xs)]

/-- A list over again brings nothing new. -/
theorem distinct_flatten_replicate (n : Nat) (xs : List α) :
    distinct (List.replicate (n + 1) xs).flatten = distinct xs := by
  have hsubset : (List.replicate n xs).flatten ⊆ distinct xs := by
    intro x hx
    obtain ⟨ys, hys, hx⟩ := List.mem_flatten.mp hx
    rw [List.eq_of_mem_replicate hys] at hx
    exact mem_distinct.mpr hx
  calc
    distinct (List.replicate (n + 1) xs).flatten = addAll (distinct xs) (List.replicate n xs).flatten := by
      rw [List.replicate_succ, List.flatten_cons, distinct, addAll_append, distinct]
    _ = distinct xs := by rw [addAll_eq_append_fresh, fresh_of_subset hsubset, List.append_nil]

end EvalOrder
