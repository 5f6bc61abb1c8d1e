import EvalOrder.Graph.Basic

/-!
# Dependencies between formulas

A formula depends on every other formula that declares a name it calls. The owners of the names it calls are looked up
(`owners`), which gives a set, and sorted (`targets`). `linkEdges` lists the dependencies, formula by formula in the
order of declaration and for each formula in the order of declaration of the others; `link` adds them to the graph as
edges. Together they are `link_formulas`.

Results:
* `mem_formulas_of_owner`: every owner is a formula, and so has a place in the order of declaration.
* `mem_linkEdges`: the edges are exactly the pairs of distinct formulas of which the first calls a name that the second
  owns.
* `size_link`, `formulas_link`, `names_link`: linking adds no vertex, name or formula.
-/

namespace EvalOrder.Graph

/-- The names that the vertex of a handle declares. -/
def declaredBy (g : Graph) (h : Handle) : List Handle :=
  (g.vertices[h]?.map Vertex.declared).getD []

/-- The names that the vertex of a handle calls. -/
def calledBy (g : Graph) (h : Handle) : List Handle :=
  (g.vertices[h]?.map Vertex.called).getD []

/-- The formula that owns each declared name: the last one that declares it. -/
def owners (g : Graph) : Table Handle Handle :=
  g.formulas.foldl (fun t f => (g.declaredBy f).foldl (fun t name => t.put name f) t) []

/-- The set of formulas that own a name which `formula` calls, without the formula itself. -/
def calledOwners (g : Graph) (owners : Table Handle Handle) (formula : Handle) : List Handle :=
  (distinct ((g.calledBy formula).filterMap owners.get?)).filter (· ≠ formula)

/-- The first of two formulas is not declared after the second. -/
def notAfter (g : Graph) (a b : Handle) : Bool := g.formulas.idxOf a ≤ g.formulas.idxOf b

/-- The formulas that `formula` depends on, sorted by where they are declared. -/
def targets (g : Graph) (owners : Table Handle Handle) (formula : Handle) : List Handle :=
  (g.calledOwners owners formula).mergeSort g.notAfter

/-- The dependencies between the formulas. -/
def linkEdges (g : Graph) : List (Handle × Handle) :=
  let owners := g.owners
  g.formulas.flatMap fun f => (g.targets owners f).map fun target => (f, target)

/-- Add edges in order. -/
def addEdges (g : Graph) (edges : List (Handle × Handle)) : Graph :=
  edges.foldl (fun g e => g.update e.1 (·.addRelated e.2)) g

/-- `link_formulas`: add the dependencies between the formulas to the graph. -/
def link (g : Graph) : Graph :=
  g.addEdges g.linkEdges

/-- Edges add no vertex, name or formula. -/
theorem addEdges_keeps : ∀ (edges : List (Handle × Handle)) (g : Graph),
    (g.addEdges edges).size = g.size ∧ (g.addEdges edges).names = g.names ∧
      (g.addEdges edges).formulas = g.formulas
  | [], _ => ⟨rfl, rfl, rfl⟩
  | e :: edges, g => by
    obtain ⟨h1, h2, h3⟩ := addEdges_keeps edges (g.update e.1 (·.addRelated e.2))
    exact ⟨h1.trans (size_update _ _ _), h2, h3⟩

/-- Formulas are put into the table for each of their names. -/
theorem get?_foldl_put (names : List Handle) (f : Handle) (t : Table Handle Handle) (d : Handle) :
    (names.foldl (fun t name => t.put name f) t).get? d = if d ∈ names then some f else t.get? d := by
  induction names generalizing t with
  | nil => simp
  | cons name names ih =>
    rw [List.foldl_cons, ih, Table.get?_put]
    by_cases hd : d ∈ names
    · simp [hd]
    · by_cases he : name = d
      · simp [he]
      · simp [hd, he, Ne.symm he]

/-- What a table of owners holds are the formulas that were put into it. -/
theorem mem_of_get?_foldl_owners {g : Graph} {name f : Handle} {fs : List Handle} :
    ∀ {t : Table Handle Handle},
      (fs.foldl (fun t f => (g.declaredBy f).foldl (fun t name => t.put name f) t) t).get? name = some f →
        f ∈ fs ∨ t.get? name = some f := by
  induction fs with
  | nil => exact fun h => .inr h
  | cons a fs ih =>
    intro t h
    rcases ih h with hf | h
    · exact .inl (List.mem_cons_of_mem _ hf)
    · rw [get?_foldl_put] at h
      split at h
      · exact .inl (List.mem_cons.mpr (.inl (Option.some.inj h).symm))
      · exact .inr h

/-- Every owner is a formula. -/
theorem mem_formulas_of_owner {g : Graph} {name f : Handle} (h : g.owners.get? name = some f) : f ∈ g.formulas :=
  (mem_of_get?_foldl_owners h).resolve_right fun h => by cases h

theorem mem_calledOwners {g : Graph} {owners : Table Handle Handle} {a b : Handle} :
    b ∈ g.calledOwners owners a ↔ b ≠ a ∧ ∃ name ∈ g.calledBy a, owners.get? name = some b := by
  simp only [calledOwners, List.mem_filter, mem_distinct, List.mem_filterMap, decide_eq_true_eq]
  exact and_comm

theorem mem_linkEdges {g : Graph} {a b : Handle} :
    (a, b) ∈ g.linkEdges ↔
      a ∈ g.formulas ∧ b ∈ g.formulas ∧ b ≠ a ∧ ∃ name ∈ g.calledBy a, g.owners.get? name = some b := by
  have hmem : (a, b) ∈ g.linkEdges ↔
      a ∈ g.formulas ∧ b ≠ a ∧ ∃ name ∈ g.calledBy a, g.owners.get? name = some b := by
    simp [linkEdges, targets, mem_calledOwners]
  rw [hmem]
  refine and_congr_right fun _ => ⟨fun h => ⟨?_, h⟩, fun h => h.2⟩
  obtain ⟨-, name, -, hname⟩ := h
  exact mem_formulas_of_owner hname

theorem size_link (g : Graph) : g.link.size = g.size := (addEdges_keeps _ g).1

theorem names_link (g : Graph) : g.link.names = g.names := (addEdges_keeps _ g).2.1

theorem formulas_link (g : Graph) : g.link.formulas = g.formulas := (addEdges_keeps _ g).2.2

end EvalOrder.Graph
