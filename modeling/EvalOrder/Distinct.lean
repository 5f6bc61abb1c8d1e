/-!
# Lists without repeats

A list that collects values in the order they are first met: `addNew` appends a value unless it is there already,
`distinct` collects a whole list. They stand for sets whose order does not matter, for the keys of a dictionary whose
values do not matter, and for `Vertex.add_called`.

Results:
* `mem_addNew`, `mem_addAll`: what is collected is what was there and what was added.
* `addAll_append`, `addAll_of_subset`: values may be added in two goes, and adding what is there changes nothing.
* `nodup_addNew`, `nodup_addAll`: no value is collected twice.
-/

namespace EvalOrder

variable {α : Type} [DecidableEq α]

/-- Append `x` unless it is in the list. -/
def addNew (xs : List α) (x : α) : List α :=
  if x ∈ xs then xs else xs ++ [x]

/-- Append the new ones of `ys`, in order. -/
def addAll (xs ys : List α) : List α :=
  ys.foldl addNew xs

/-- The values of a list in the order they are first met. -/
def distinct (xs : List α) : List α :=
  addAll [] xs

theorem mem_addNew {xs : List α} {x y : α} : y ∈ addNew xs x ↔ y ∈ xs ∨ y = x := by
  unfold addNew
  split
  · rename_i h
    exact ⟨Or.inl, fun hy => hy.elim id fun e => e ▸ h⟩
  · simp

theorem mem_addAll {ys : List α} : ∀ {xs : List α} {y : α}, y ∈ addAll xs ys ↔ y ∈ xs ∨ y ∈ ys := by
  induction ys with
  | nil => simp [addAll]
  | cons z ys ih =>
    intro xs y
    rw [show addAll xs (z :: ys) = addAll (addNew xs z) ys from rfl, ih, mem_addNew, List.mem_cons,
      or_assoc]

theorem addAll_append (xs ys zs : List α) : addAll xs (ys ++ zs) = addAll (addAll xs ys) zs :=
  List.foldl_append

theorem addAll_of_subset {ys : List α} : ∀ {xs : List α}, ys ⊆ xs → addAll xs ys = xs := by
  induction ys with
  | nil => exact fun _ => rfl
  | cons y ys ih =>
    intro xs h
    obtain ⟨hy, hys⟩ := List.cons_subset.mp h
    rw [addAll, List.foldl_cons, addNew, if_pos hy]
    exact ih hys

/-- Values that bring nothing may be left out of what a collection is mapped to. -/
theorem flatMap_addAll {β : Type} {f : α → List β} {ys : List α} :
    ∀ {xs : List α}, (∀ y ∈ ys, y ∈ xs ∨ f y = []) → (addAll xs ys).flatMap f = xs.flatMap f := by
  induction ys with
  | nil => exact fun _ => rfl
  | cons y ys ih =>
    intro xs h
    obtain ⟨hy, hys⟩ := List.forall_mem_cons.mp h
    rw [addAll, List.foldl_cons, ← addAll, ih fun z hz => (hys z hz).imp_left fun hz => mem_addNew.mpr (.inl hz)]
    unfold addNew
    split
    · rfl
    · rename_i hnew
      rw [List.flatMap_append, List.flatMap_singleton, hy.resolve_left hnew, List.append_nil]

theorem nodup_addNew {xs : List α} (h : xs.Nodup) (x : α) : (addNew xs x).Nodup := by
  unfold addNew
  split
  · exact h
  · rename_i hx
    refine List.nodup_append.mpr ⟨h, by simp, ?_⟩
    intro a ha b hb
    rw [List.mem_singleton.mp hb]
    exact fun e => hx (e ▸ ha)

theorem nodup_addAll : ∀ (ys : List α) {xs : List α}, xs.Nodup → (addAll xs ys).Nodup
  | [], _, h => h
  | y :: ys, _, h => nodup_addAll ys (nodup_addNew h y)

theorem mem_distinct {xs : List α} {x : α} : x ∈ distinct xs ↔ x ∈ xs := by
  simp [distinct, mem_addAll]

theorem nodup_distinct (xs : List α) : (distinct xs).Nodup :=
  nodup_addAll xs List.nodup_nil

end EvalOrder
