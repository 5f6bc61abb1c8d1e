import EvalOrder.Graph.Basic

/-!
# The dependencies between formulas as a plain directed graph

The view of a formula graph in which only formulas and what they depend on are left (`to_networkx`). It is built node by
node and edge by edge: first a node for each formula, with its label (`addNode`, which is `add_node`), then an edge for
each dependency (`addEdge`, which is `add_edge`). An edge whose ends have no node yet brings nodes without labels, and
an edge that is there already changes nothing. Of the `DiGraph` only the nodes, their labels and the edges are left; its
other attributes are set by nothing.

Results:
* `node_dependencies`, `members_dependencies`: the nodes are the formulas, then the other vertices that formulas depend
  on, and only formulas have a label and edges.
* `edges_dependencies`: there is an edge for each dependency, once, however often it was added.
* `mem_edges`: the edges are the related pairs whose first is a formula.
* `mem_members`: the nodes are the formulas and the ends of the edges.
-/

namespace EvalOrder

/-- A node of a directed graph: its label, if it was given one, and the ends of its edges. -/
structure DependencyNode where
  label : Option String := none
  targets : List Handle := []
  deriving DecidableEq, Repr

/-- A directed graph, whose edges go from a dependent to its dependency. Nodes, and the edges of a node, are in the
order in which they were added. -/
structure DependencyView where
  nodes : Table Handle DependencyNode := []
  deriving DecidableEq, Repr

namespace DependencyView

/-- The handles of the nodes. -/
def members (view : DependencyView) : List Handle := view.nodes.keys

/-- The node of a handle. -/
def node (view : DependencyView) (h : Handle) : DependencyNode := (view.nodes.get? h).getD {}

/-- The edges, node by node. -/
def edges (view : DependencyView) : List (Handle × Handle) :=
  view.members.flatMap fun h => (view.node h).targets.map fun target => (h, target)

/-- Add a node with a label. -/
def addNode (view : DependencyView) (h : Handle) (label : Option String) : DependencyView :=
  ⟨view.nodes.put h { view.node h with label }⟩

/-- Add a node without a label, unless it is there. -/
def touch (view : DependencyView) (h : Handle) : DependencyView :=
  if h ∈ view.members then view else ⟨view.nodes.put h {}⟩

/-- Add an edge. -/
def addEdge (view : DependencyView) (source target : Handle) : DependencyView :=
  let view := (view.touch source).touch target
  ⟨view.nodes.put source { view.node source with targets := addNew (view.node source).targets target }⟩

/-! ## Adding nodes and edges -/

variable (view : DependencyView)

theorem node_addNode (h k : Handle) (label : Option String) :
    (view.addNode h label).node k = if h = k then { view.node h with label } else view.node k := by
  rw [addNode, node, Table.get?_put]
  split <;> rfl

theorem members_addNode (h : Handle) (label : Option String) :
    (view.addNode h label).members = addNew view.members h :=
  Table.keys_put _ _ _

theorem node_touch (h k : Handle) : (view.touch h).node k = view.node k := by
  unfold touch
  split
  · rfl
  · rename_i hnew
    rw [node, node, Table.get?_put]
    split
    · rename_i hk
      rw [← hk, Table.get?_eq_none_iff.mpr hnew]
      rfl
    · rfl

theorem members_touch (h : Handle) : (view.touch h).members = addNew view.members h := by
  unfold touch
  split
  · rename_i hmem
    rw [addNew, if_pos hmem]
  · exact Table.keys_put _ _ _

theorem node_addEdge (source target k : Handle) :
    (view.addEdge source target).node k =
      if source = k then { view.node source with targets := addNew (view.node source).targets target }
      else view.node k := by
  rw [addEdge, node, Table.get?_put, node_touch, node_touch]
  split
  · rfl
  · exact (node_touch _ _ _).trans (node_touch _ _ _)

theorem members_addEdge (source target : Handle) :
    (view.addEdge source target).members = addNew (addNew view.members source) target := by
  have hmembers : ((view.touch source).touch target).members = addNew (addNew view.members source) target := by
    rw [members_touch, members_touch]
  have hsource : source ∈ addNew (addNew view.members source) target :=
    mem_addNew.mpr (.inl (mem_addNew.mpr (.inr rfl)))
  rw [addEdge, members, Table.keys_put, ← members, hmembers, if_pos hsource]

/-! ## Adding many -/

theorem node_addNodes (label : Handle → Option String) (fs : List Handle) (view : DependencyView) (k : Handle) :
    (fs.foldl (fun view f => view.addNode f (label f)) view).node k =
      if k ∈ fs then { view.node k with label := label k } else view.node k := by
  induction fs generalizing view with
  | nil => rfl
  | cons f fs ih =>
    rw [List.foldl_cons, ih, node_addNode]
    by_cases hk : f = k
    · subst hk
      simp
    · simp [hk, Ne.symm hk]

theorem members_addNodes (label : Handle → Option String) (fs : List Handle) (view : DependencyView) :
    (fs.foldl (fun view f => view.addNode f (label f)) view).members = addAll view.members fs := by
  induction fs generalizing view with
  | nil => rfl
  | cons f fs ih => rw [List.foldl_cons, ih, members_addNode, addAll, addAll, List.foldl_cons]

theorem node_addEdges (source : Handle) (targets : List Handle) (view : DependencyView) (k : Handle) :
    (targets.foldl (fun view target => view.addEdge source target) view).node k =
      if source = k then { view.node source with targets := addAll (view.node source).targets targets }
      else view.node k := by
  induction targets generalizing view with
  | nil =>
    split
    · rename_i hk
      rw [← hk]
      rfl
    · rfl
  | cons target targets ih =>
    rw [List.foldl_cons, ih, node_addEdge, node_addEdge]
    split
    · rw [if_pos rfl]
      rfl
    · rfl

theorem members_addEdges {source : Handle} (targets : List Handle) {view : DependencyView}
    (h : source ∈ view.members) :
    (targets.foldl (fun view target => view.addEdge source target) view).members = addAll view.members targets := by
  induction targets generalizing view with
  | nil => rfl
  | cons target targets ih =>
    have hsource : addNew view.members source = view.members := if_pos h
    have hmembers : (view.addEdge source target).members = addNew view.members target := by
      rw [members_addEdge, hsource]
    rw [List.foldl_cons, ih (hmembers ▸ mem_addNew.mpr (.inl h)), hmembers, addAll, addAll, List.foldl_cons]

end DependencyView

namespace Graph

/-- What the vertex of a handle depends on. -/
def relatedOf (g : Graph) (h : Handle) : List Handle :=
  (g.vertices[h]?.map Vertex.related).getD []

/-- The name or label of a handle. -/
def nameOf? (g : Graph) (h : Handle) : Option String := g.vertices[h]?.map Vertex.name

/-- Add the edges of some formulas. -/
def addDependencies (g : Graph) (view : DependencyView) (formulas : List Handle) : DependencyView :=
  formulas.foldl (fun view f => (g.relatedOf f).foldl (fun view target => view.addEdge f target) view) view

/-- `to_networkx`: the view of the dependencies between formulas. -/
def dependencies (g : Graph) : DependencyView :=
  g.addDependencies (g.formulas.foldl (fun view f => view.addNode f (g.nameOf? f)) {}) g.formulas

/-! ## What the view holds -/

theorem node_addDependencies (g : Graph) (fs : List Handle) (view : DependencyView) (k : Handle) :
    (g.addDependencies view fs).node k =
      if k ∈ fs then { view.node k with targets := addAll (view.node k).targets (g.relatedOf k) }
      else view.node k := by
  induction fs generalizing view with
  | nil => rfl
  | cons f fs ih =>
    rw [addDependencies, List.foldl_cons, ← addDependencies, ih, DependencyView.node_addEdges]
    by_cases hk : f = k
    · subst hk
      -- the edges of a formula that stands twice are there already
      have hagain : addAll (addAll (view.node f).targets (g.relatedOf f)) (g.relatedOf f) =
          addAll (view.node f).targets (g.relatedOf f) :=
        addAll_of_subset fun t ht => mem_addAll.mpr (.inr ht)
      simp [hagain]
    · simp [hk, Ne.symm hk]

theorem members_addDependencies (g : Graph) {fs : List Handle} {view : DependencyView} (h : fs ⊆ view.members) :
    (g.addDependencies view fs).members = addAll view.members (fs.flatMap g.relatedOf) := by
  induction fs generalizing view with
  | nil => rfl
  | cons f fs ih =>
    obtain ⟨hf, hfs⟩ := List.cons_subset.mp h
    have hmembers := DependencyView.members_addEdges (g.relatedOf f) hf
    rw [addDependencies, List.foldl_cons, ← addDependencies, ih, hmembers, List.flatMap_cons, addAll_append]
    rw [hmembers]
    exact fun i hi => mem_addAll.mpr (.inl (hfs hi))

/-- Only formulas have a label and edges, -/
theorem node_dependencies (g : Graph) (h : Handle) :
    g.dependencies.node h = if h ∈ g.formulas then ⟨g.nameOf? h, distinct (g.relatedOf h)⟩ else {} := by
  rw [dependencies, node_addDependencies, DependencyView.node_addNodes]
  split <;> rfl

/-- and the nodes are the formulas, then the others that they depend on. -/
theorem members_dependencies (g : Graph) :
    g.dependencies.members = distinct (g.formulas ++ g.formulas.flatMap g.relatedOf) := by
  have hformulas := DependencyView.members_addNodes g.nameOf? g.formulas {}
  rw [dependencies, members_addDependencies, hformulas, distinct, addAll_append]
  · rfl
  · rw [hformulas]
    exact fun i hi => mem_addAll.mpr (.inr hi)

theorem nodup_members (g : Graph) : g.dependencies.members.Nodup :=
  g.members_dependencies ▸ nodup_distinct _

/-- There is an edge for each dependency, once. -/
theorem edges_dependencies (g : Graph) :
    g.dependencies.edges =
      (distinct g.formulas).flatMap fun f => (distinct (g.relatedOf f)).map fun target => (f, target) := by
  rw [DependencyView.edges, members_dependencies, distinct, addAll_append, ← distinct, flatMap_addAll]
  · rw [List.flatMap_def, List.flatMap_def]
    congr 1
    refine List.map_congr_left fun f hf => ?_
    rw [node_dependencies, if_pos (mem_distinct.mp hf)]
  · -- what is no formula has no edges
    intro h _
    rw [node_dependencies, mem_distinct]
    split
    · rename_i hf
      exact .inl hf
    · exact .inr rfl

theorem mem_edges {g : Graph} {a b : Handle} :
    (a, b) ∈ g.dependencies.edges ↔ a ∈ g.formulas ∧ b ∈ g.relatedOf a := by
  simp [edges_dependencies, mem_distinct]

theorem mem_members {g : Graph} {h : Handle} :
    h ∈ g.dependencies.members ↔ h ∈ g.formulas ∨ ∃ f ∈ g.formulas, h ∈ g.relatedOf f := by
  rw [members_dependencies, mem_distinct, List.mem_append, List.mem_flatMap]

end Graph

end EvalOrder
