import EvalOrder.Graph.DependencyView

/-!
# Checking an order

`checkOrder` is `check_order`: it tests a list of handles against the dependencies of a graph, whoever made the list.
The list must have every node of the dependency view once, a search must have left every listed vertex, and no formula
may stand before one that it depends on. Places are looked up in a table (`places`); a vertex that is not listed has
none, which is a fault.

Results:
* `get?_places`: the place of a vertex in a list without repeats.
* `checkEdges_cons`: how the places of listed vertices are compared.
* `checkEdges_eq_ok_iff`: the last test passes exactly when no dependency stands after its dependent.
-/

namespace EvalOrder.Graph

/-- The places of the listed vertices; that of one which is listed twice is the last. -/
def places (ordered : List Handle) : Table Handle Nat :=
  ordered.zipIdx.foldl (fun t e => t.put e.1 e.2) []

/-- The place of a vertex, which must have one. -/
def placeOf (places : Table Handle Nat) (h : Handle) : Except Failure Nat :=
  match places.get? h with
  | some place => .ok place
  | none => .error (.fault (.unplaced h))

/-- No dependent stands before its dependency; the first one that does is reported. -/
def checkEdges (g : Graph) (places : Table Handle Nat) : List (Handle × Handle) → Except Failure Unit
  | [] => .ok ()
  | (dependent, dependency) :: edges => do
    if (← placeOf places dependency) > (← placeOf places dependent) then
      .error (.misordered (.beforeDependency (← g.label dependent) (← g.label dependency)))
    else g.checkEdges places edges

/-- `check_order`: test an order of the formulas. -/
def checkOrder (g : Graph) (ordered : List Handle) : Except Failure Unit := do
  let view := g.dependencies
  let members := view.members
  if ordered.length ≠ members.length ∨ ¬ (ordered ⊆ members ∧ members ⊆ ordered) then
    .error (.misordered (.differentVertices ordered.length members.length))
  else
    let unfinished := (← ordered.mapM g.get).filter (·.color ≠ .black)
    if unfinished ≠ [] then .error (.misordered (.unfinished (unfinished.map Vertex.name)))
    else g.checkEdges (places ordered) view.edges

/-! ## Places -/

theorem get?_foldl_zipIdx {ordered : List Handle} (h : ordered.Nodup) :
    ∀ (start : Nat) (t : Table Handle Nat) (k : Handle),
      ((ordered.zipIdx start).foldl (fun t e => t.put e.1 e.2) t).get? k =
        if k ∈ ordered then some (start + ordered.idxOf k) else t.get? k := by
  induction ordered with
  | nil => exact fun _ _ _ => rfl
  | cons i ordered ih =>
    intro start t k
    obtain ⟨hi, hordered⟩ := List.nodup_cons.mp h
    rw [List.zipIdx_cons, List.foldl_cons, ih hordered, Table.get?_put]
    by_cases hk : i = k
    · subst hk
      simp [hi]
    · have hmem : k ∈ i :: ordered ↔ k ∈ ordered := List.mem_cons.trans (or_iff_right (Ne.symm hk))
      have hplace : (i :: ordered).idxOf k = ordered.idxOf k + 1 := by
        rw [List.idxOf_cons, beq_false_of_ne hk, cond_false]
      rw [if_neg hk, hplace, Nat.add_assoc start 1, Nat.add_comm 1]
      simp only [hmem]

/-- The place of a vertex in a list without repeats. -/
theorem get?_places {ordered : List Handle} (h : ordered.Nodup) (k : Handle) :
    (places ordered).get? k = if k ∈ ordered then some (ordered.idxOf k) else none := by
  rw [places, get?_foldl_zipIdx h, Nat.zero_add]
  rfl

theorem placeOf_places {ordered : List Handle} (h : ordered.Nodup) {k : Handle} (hk : k ∈ ordered) :
    placeOf (places ordered) k = .ok (ordered.idxOf k) := by
  rw [placeOf, get?_places h, if_pos hk]

/-- Listed vertices have a place, so only the places are compared. -/
theorem checkEdges_cons {g : Graph} {ordered : List Handle} (h : ordered.Nodup) {a b : Handle} (ha : a ∈ ordered)
    (hb : b ∈ ordered) (edges : List (Handle × Handle)) :
    g.checkEdges (places ordered) ((a, b) :: edges) =
      if ordered.idxOf a < ordered.idxOf b then do
        .error (.misordered (.beforeDependency (← g.label a) (← g.label b)))
      else g.checkEdges (places ordered) edges := by
  rw [checkEdges, placeOf_places h ha, placeOf_places h hb]
  rfl

theorem checkEdges_eq_ok_iff {g : Graph} {ordered : List Handle} (h : ordered.Nodup) :
    ∀ {edges : List (Handle × Handle)}, (∀ e ∈ edges, e.1 ∈ ordered ∧ e.2 ∈ ordered) →
      (g.checkEdges (places ordered) edges = .ok () ↔ ∀ e ∈ edges, ordered.idxOf e.2 ≤ ordered.idxOf e.1)
  | [], _ => by simp [checkEdges]
  | (a, b) :: edges, hedges => by
    obtain ⟨⟨ha, hb⟩, hedges⟩ := List.forall_mem_cons.mp hedges
    rw [checkEdges_cons h ha hb]
    split
    · rename_i hearly
      refine iff_of_false (fun hok => ?_) (fun hall => ?_)
      · cases ha : g.label a with
        | error e => simp only [ha, bind, Except.bind] at hok; cases hok
        | ok x =>
          cases hb : g.label b with
          | error e => simp only [ha, hb, bind, Except.bind] at hok; cases hok
          | ok y => simp only [ha, hb, bind, Except.bind] at hok; cases hok
      · exact absurd hearly (Nat.not_lt.mpr (hall _ List.mem_cons_self))
    · rename_i hlate
      rw [checkEdges_eq_ok_iff h hedges, List.forall_mem_cons]
      exact ⟨fun hall => ⟨Nat.le_of_not_lt hlate, hall⟩, fun hall => hall.2⟩

end EvalOrder.Graph
