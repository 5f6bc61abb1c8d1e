import EvalOrder.Proofs.Resorting

/-!
# The check of an order, whoever made it

`checkOrder` takes any list of handles. What it accepts has been said; whatever else it is given, it says what is wrong
with it, and asks for no vertex that is not there: colours, labels and places are looked up only after the list has
turned out to hold the vertices that it should.

A formula that depends on itself, and on nothing that depends on it, can be placed as if it did not: the check lets
its place be where it is. So it is not every circle that keeps a list from being accepted. To find an order that is
accepted, sort without such edges (`loopless`).

Results:
* `checkEdges_cases`: what comparing the places of dependents and dependencies comes to.
* `checkOrder_cases`: what the check comes to.
* **`checkOrder_exact`**: when it accepts, and that otherwise it says what is wrong.
* `edge_loopless_iff`, `Enclosed.loopless`: the graph without edges from a vertex to itself.
* `not_accepted_of_circle`, `accepted_of_order_loopless`: which circles keep every list from being accepted.
* **`no_order_accepted_iff`**: just those through two formulas or more.
-/

namespace EvalOrder

namespace Graph

variable {g : Graph} {ordered : List Handle}

/-! ## What is wrong with a list -/

/-- The list holds each formula, and whatever formulas depend on, once. -/
def Lists (g : Graph) (ordered : List Handle) : Prop :=
  ordered.Nodup ∧ ∀ h, h ∈ ordered ↔ h ∈ g.formulas ∨ ∃ f ∈ g.formulas, g.Edge f h

/-- All listed vertices have been left by a search. -/
def Finished (g : Graph) (ordered : List Handle) : Prop := ∀ h ∈ ordered, g.colorOf h = some .black

instance : Decidable (g.Finished ordered) :=
  inferInstanceAs (Decidable (∀ h ∈ ordered, g.colorOf h = some .black))

/-- What other vertices a formula depends on stands earlier than the formula. -/
def Descends (g : Graph) (ordered : List Handle) : Prop :=
  ∀ f ∈ g.formulas, ∀ t, g.Edge f t → t ≠ f → ordered.idxOf t < ordered.idxOf f

/-- What is wrong with a list: it holds other vertices than it should; or it is right in this and vertices are not
black; or it is right in both and a dependent stands before its dependency, of which the first edge is reported. -/
inductive Rejects (g : Graph) (ordered : List Handle) : Misorder → Prop
  | different : ¬ g.Lists ordered →
      Rejects g ordered (.differentVertices ordered.length g.dependencies.members.length)
  | unfinished {labels : List String} : g.Lists ordered → ¬ g.Finished ordered →
      g.labels (ordered.filter fun h => g.colorOf h ≠ some .black) = .ok labels →
      Rejects g ordered (.unfinished labels)
  | early {f t : Handle} {before after : List (Handle × Handle)} {name name' : String} : g.Lists ordered →
      g.Finished ordered → g.dependencies.edges = before ++ (f, t) :: after →
      (∀ e ∈ before, ordered.idxOf e.2 ≤ ordered.idxOf e.1) → ordered.idxOf f < ordered.idxOf t →
      g.nameOf? f = some name → g.nameOf? t = some name' → Rejects g ordered (.beforeDependency name name')

/-- Places are compared edge by edge, up to the first edge whose end stands later than its start. -/
theorem checkEdges_cases (honce : ordered.Nodup) : ∀ {edges : List (Handle × Handle)},
    (∀ e ∈ edges, e.1 ∈ ordered ∧ e.2 ∈ ordered) → (∀ e ∈ edges, e.1 < g.size ∧ e.2 < g.size) →
    g.checkEdges (places ordered) edges = .ok () ∨
      ∃ f t before after name name', edges = before ++ (f, t) :: after ∧
        (∀ e ∈ before, ordered.idxOf e.2 ≤ ordered.idxOf e.1) ∧ ordered.idxOf f < ordered.idxOf t ∧
        g.nameOf? f = some name ∧ g.nameOf? t = some name' ∧
        g.checkEdges (places ordered) edges = .error (.misordered (.beforeDependency name name'))
  | [], _, _ => .inl rfl
  | (f, t) :: edges, hends, hlt => by
    obtain ⟨⟨hfo, hto⟩, hends⟩ := List.forall_mem_cons.mp hends
    obtain ⟨⟨hf, ht⟩, hlt⟩ := List.forall_mem_cons.mp hlt
    rw [checkEdges_cons honce hfo hto]
    split
    · rename_i hearly
      obtain ⟨v, hv⟩ := exists_vertex hf
      obtain ⟨w, hw⟩ := exists_vertex ht
      have hname : g.nameOf? f = some v.name := by rw [nameOf?, hv, Option.map_some]
      have hname' : g.nameOf? t = some w.name := by rw [nameOf?, hw, Option.map_some]
      refine .inr ⟨f, t, [], edges, v.name, w.name, rfl, by simp, hearly, hname, hname', ?_⟩
      simp only [label_eq_ok_iff.mpr hname, label_eq_ok_iff.mpr hname', bind, Except.bind]
    · rename_i hlate
      rcases checkEdges_cases honce hends hlt with
        hok | ⟨a, b, before, after, name, name', rfl, hbefore, hrest⟩
      · exact .inl hok
      · exact .inr ⟨a, b, (f, t) :: before, after, name, name', rfl,
          List.forall_mem_cons.mpr ⟨Nat.le_of_not_lt hlate, hbefore⟩, hrest⟩

/-- The names of the vertices that are not black. -/
theorem labels_unfinished {hs : List Handle} {vs : List Vertex}
    (h : List.Forall₂ (fun i v => g.get i = .ok v) hs vs) :
    g.labels (hs.filter fun i => g.colorOf i ≠ some .black) =
      .ok ((vs.filter (·.color ≠ .black)).map Vertex.name) := by
  rw [labels_eq_ok_iff]
  induction h with
  | nil => exact .nil
  | @cons i v hs vs hv _ ih =>
    have hv := get_eq_ok_iff.mp hv
    have hcolor := colorOf_eq hv
    by_cases hblack : v.color = .black
    · rw [hblack] at hcolor
      rwa [List.filter_cons_of_neg (by simp [hcolor]), List.filter_cons_of_neg (by simp [hblack])]
    · rw [List.filter_cons_of_pos (by simp [hcolor, hblack]), List.filter_cons_of_pos (by simp [hblack]),
        List.map_cons]
      exact .cons (by rw [nameOf?, hv, Option.map_some]) ih

/-- **What the check comes to**: it accepts, or says what is wrong. -/
theorem checkOrder_cases (hg : g.Listed) (hrange : ∀ f ∈ g.formulas, ∀ t, g.Edge f t → t < g.size)
    (ordered : List Handle) :
    g.checkOrder ordered = .ok () ∨
      ∃ m, g.Rejects ordered m ∧ g.checkOrder ordered = .error (.misordered m) := by
  have hsame := same_members_iff ordered (nodup_members g)
  simp only [mem_members] at hsame
  unfold checkOrder
  simp only
  split
  · rename_i hdiff
    refine .inr ⟨_, .different fun hlists => ?_, rfl⟩
    obtain ⟨hlen, hsub⟩ := hsame.mpr hlists
    exact hdiff.elim (fun h => h hlen) fun h => h hsub
  · rename_i hsize
    rw [not_or, not_not, not_not] at hsize
    have hlists : g.Lists ordered := hsame.mp hsize
    -- so all that is listed is there, and can be looked at
    have hlt : ∀ h ∈ ordered, h < g.size := fun h hh =>
      ((hlists.2 h).mp hh).elim (hg.inRange h) fun ⟨f, hf, hfh⟩ => hrange f hf h hfh
    obtain ⟨vs, hvs⟩ := exists_forall₂ fun h hh => get_isOk_iff.mpr (hlt h hh)
    have hblack := all_black_iff hvs
    simp only [(mapM_eq_ok_iff g.get).mpr hvs, bind, Except.bind]
    split
    · rename_i hunfinished
      refine .inr ⟨_, .unfinished hlists (fun hfinished => hunfinished ?_) (labels_unfinished hvs), rfl⟩
      exact List.filter_eq_nil_iff.mpr fun v hv => by simpa using hblack.mpr hfinished v hv
    · rename_i hfinished
      have hfinished : g.Finished ordered := hblack.mp fun v hv => by
        simpa using List.filter_eq_nil_iff.mp (not_not.mp hfinished) v hv
      have hedges : ∀ e ∈ g.dependencies.edges, e.1 < g.size ∧ e.2 < g.size := fun e he => by
        obtain ⟨hf, ht⟩ := mem_edges.mp he
        exact ⟨hg.inRange _ hf, hrange _ hf _ ht⟩
      refine (checkEdges_cases hlists.1 (ends_mem_of_members hsize.2.2) hedges).imp id ?_
      rintro ⟨f, t, before, after, name, name', hsplit, hbefore, hearly, hname, hname', herror⟩
      exact ⟨_, .early hlists hfinished hsplit hbefore hearly hname hname', herror⟩

/-- **What the check means.** It accepts a list exactly if the list holds each formula, and whatever formulas depend on,
once, all black, and each formula later than the others that it depends on. Of any other list it says what is wrong
with it, and nothing else happens, whatever handles the list holds. -/
theorem checkOrder_exact (hg : g.Listed) (hrange : ∀ f ∈ g.formulas, ∀ t, g.Edge f t → t < g.size)
    (ordered : List Handle) :
    (g.checkOrder ordered = .ok () ↔ g.Lists ordered ∧ g.Finished ordered ∧ g.Descends ordered) ∧
      (¬ (g.Lists ordered ∧ g.Finished ordered ∧ g.Descends ordered) →
        ∃ m, g.Rejects ordered m ∧ g.checkOrder ordered = .error (.misordered m)) := by
  have hiff : g.checkOrder ordered = .ok () ↔ g.Lists ordered ∧ g.Finished ordered ∧ g.Descends ordered :=
    checkOrder_eq_ok_iff
  refine ⟨hiff, fun hnot => ?_⟩
  exact (checkOrder_cases hg hrange ordered).resolve_left fun hok => hnot (hiff.mp hok)

/-- The formula `a=a` depends on itself and on the name `a`, and `b=a` on it, twice. They may stand in this order behind
the name; with another vertex in its place, and one of them repeated, the list is rejected. -/
theorem checkOrder_behind_name : ∃ g : Graph, g.Listed ∧ (∀ f ∈ g.formulas, ∀ t, g.Edge f t → t < g.size) ∧
    (g.Lists [0, 1, 3] ∧ g.Finished [0, 1, 3] ∧ g.Descends [0, 1, 3]) ∧
    ∃ m, g.Rejects [9, 1, 1] m ∧ g.checkOrder [9, 1, 1] = .error (.misordered m) := by
  let g : Graph := {
    vertices := #[{ handle := 0, name := "a", color := .black },
      { handle := 1, name := "a=a", declared := [0], called := [0], related := [1, 0], color := .black },
      { handle := 2, name := "b" },
      { handle := 3, name := "b=a", declared := [2], called := [0], related := [1, 1], color := .black }]
    names := [("a", 0), ("b", 2)]
    formulas := [1, 3] }
  have hg : g.Listed := by decide
  have hrange : ∀ f ∈ g.formulas, ∀ t ∈ g.relatedOf f, t < g.size := by decide
  refine ⟨g, hg, hrange, (checkOrder_exact hg hrange [0, 1, 3]).1.mp (by decide),
    (checkOrder_exact hg hrange [9, 1, 1]).2 ?_⟩
  rintro ⟨⟨honce, -⟩, -⟩
  exact absurd honce (by decide)

/-! ## Edges from a vertex to itself -/

/-- The graph without edges from a vertex to itself. -/
def loopless (g : Graph) : Graph :=
  { g with vertices := g.vertices.mapIdx fun h v => { v with related := v.related.filter (· ≠ h) } }

theorem vertices_loopless (g : Graph) (h : Handle) :
    g.loopless.vertices[h]? = g.vertices[h]?.map fun v => { v with related := v.related.filter (· ≠ h) } :=
  Array.getElem?_mapIdx

theorem size_loopless (g : Graph) : g.loopless.size = g.size := Array.size_mapIdx

theorem edge_loopless_iff {a b : Handle} : g.loopless.Edge a b ↔ g.Edge a b ∧ b ≠ a := by
  rw [Edge, Edge, relatedOf, relatedOf, vertices_loopless]
  cases g.vertices[a]? <;> simp

theorem Enclosed.loopless (hg : g.Enclosed) : g.loopless.Enclosed where
  once := hg.once
  inRange f hf := g.size_loopless.symm ▸ hg.inRange f hf
  inner f hf t ht := hg.inner f hf t (edge_loopless_iff.mp ht).1

/-! ## Circles -/

/-- Along edges places in an accepted list never rise, and fall where the formula changes. -/
theorem Descends.place {a b : Handle} (h : g.Descends ordered) (hg : g.Enclosed) (ha : a ∈ g.formulas)
    (hab : Relation.ReflTransGen g.Edge a b) : b = a ∨ ordered.idxOf b < ordered.idxOf a := by
  induction hab with
  | refl => exact .inl rfl
  | @tail c b hac hcb ih =>
    by_cases hne : b = c
    · exact hne ▸ ih
    · have hlt := h c (hg.reached hac ha) b hcb hne
      rcases ih with rfl | ih
      · exact .inr hlt
      · exact .inr (Nat.lt_trans hlt ih)

/-- Two formulas that depend on one another keep every list from being accepted. -/
theorem not_accepted_of_circle (hg : g.Enclosed) {f t : Handle} (hf : f ∈ g.formulas) (hne : t ≠ f)
    (hft : Relation.TransGen g.Edge f t) (htf : Relation.TransGen g.Edge t f) : g.checkOrder ordered ≠ .ok () := by
  intro hok
  have hdescends : g.Descends ordered := (checkOrder_eq_ok_iff.mp hok).2.2
  have ht : t ∈ g.formulas := hg.reached hft.to_reflTransGen hf
  have hlt := (hdescends.place hg hf hft.to_reflTransGen).resolve_left hne
  have hgt := (hdescends.place hg ht htf.to_reflTransGen).resolve_left hne.symm
  exact Nat.lt_asymm hlt hgt

/-- Sorting fails exactly if some formula depends on itself. -/
theorem order_cyclic_iff_circle (hg : g.Enclosed) :
    (∃ c, g.order.2 = .error (.cyclic c)) ↔ ∃ f ∈ g.formulas, Relation.TransGen g.Edge f f := by
  have hsame := recolored_settled g
  have hiff := order_error_iff hg.linked_settled
  rw [hsame.edge_eq, (order_recolored hg hsame).1] at hiff
  refine Iff.trans ⟨fun ⟨_, hc⟩ => ⟨_, hc⟩, fun ⟨e, he⟩ => ?_⟩ hiff
  rcases order_ok_or_cyclic hg with ⟨_, hok⟩ | ⟨labels, hcyclic⟩
  · cases hok.symm.trans he
  · exact ⟨_, hcyclic⟩

/-- An order without the edges from a formula to itself is accepted with them. -/
theorem accepted_of_order_loopless (hg : g.Enclosed) (hblack : g.Finished g.formulas)
    (h : g.loopless.order.2 = .ok ordered) : g.checkOrder ordered = .ok () := by
  have horders := hg.loopless.orders
  generalize g.loopless.order = result at h horders
  cases horders with
  | circular _ _ _ _ => cases h
  | sorted _ hperm _ htop =>
    obtain rfl := Except.ok.inj h
    have honce := hperm.nodup_iff.mpr hg.once
    refine checkOrder_eq_ok_iff.mpr ⟨⟨honce, fun i => ?_⟩, fun i hi => hblack i (hperm.mem_iff.mp hi), ?_⟩
    · exact ⟨fun hi => .inl (hperm.mem_iff.mp hi), fun hi => hperm.mem_iff.mpr <|
        hi.elim id fun ⟨f, hf, hfi⟩ => hg.inner f hf i hfi⟩
    · intro f hf t ht hne
      exact (htop.idxOf_lt honce (hperm.mem_iff.mpr hf) (edge_loopless_iff.mpr ⟨ht, hne⟩)).2

/-- A circle without edges from a formula to itself goes through two formulas. -/
theorem circle_of_loopless {f : Handle} (h : Relation.TransGen g.loopless.Edge f f) :
    ∃ t, t ≠ f ∧ Relation.TransGen g.Edge f t ∧ Relation.TransGen g.Edge t f := by
  have hedges : ∀ {a b : Handle}, g.loopless.Edge a b → g.Edge a b := fun hab => (edge_loopless_iff.mp hab).1
  obtain ⟨t, hft, htf⟩ := Relation.TransGen.head'_iff.mp h
  obtain ⟨hedge, hne⟩ := edge_loopless_iff.mp hft
  refine ⟨t, hne, .single hedge, ?_⟩
  rcases Relation.reflTransGen_iff_eq_or_transGen.mp htf with he | htf
  · exact absurd he.symm hne
  · exact Relation.TransGen.mono (fun _ _ => hedges) _ _ htf

/-- **When no order is accepted.** Sorting fails if some formula depends on itself. But if all formulas are black, no
list is accepted exactly if two different formulas depend on one another: a formula that only depends on itself directly
makes sorting fail, and still there is a list that the check accepts. -/
theorem no_order_accepted_iff (hg : g.Enclosed) (hblack : g.Finished g.formulas) :
    ((∃ c, g.order.2 = .error (.cyclic c)) ↔ ∃ f ∈ g.formulas, Relation.TransGen g.Edge f f) ∧
      ((∀ ordered, ∃ m, g.checkOrder ordered = .error (.misordered m)) ↔
        ∃ f ∈ g.formulas, ∃ t, t ≠ f ∧ Relation.TransGen g.Edge f t ∧ Relation.TransGen g.Edge t f) := by
  have hrange : ∀ f ∈ g.formulas, ∀ t, g.Edge f t → t < g.size := fun f hf t ht => hg.inRange t (hg.inner f hf t ht)
  refine ⟨order_cyclic_iff_circle hg, fun hall => ?_, ?_⟩
  · rcases order_ok_or_cyclic hg.loopless with ⟨ordered, hordered⟩ | ⟨labels, hcyclic⟩
    · obtain ⟨m, hm⟩ := hall ordered
      cases (accepted_of_order_loopless hg hblack hordered).symm.trans hm
    · obtain ⟨f, hf, hcircle⟩ := (order_cyclic_iff_circle hg.loopless).mp ⟨_, hcyclic⟩
      exact ⟨f, hf, circle_of_loopless hcircle⟩
  · rintro ⟨f, hf, t, hne, hft, htf⟩ ordered
    obtain ⟨m, -, hm⟩ := (checkOrder_cases hg.toListed hrange ordered).resolve_left
      (not_accepted_of_circle hg hf hne hft htf)
    exact ⟨m, hm⟩

/-- Of the lines `a=b` and `b=a`, both black, no list is accepted. -/
theorem no_order_of_two_lines : ∃ g : Graph, g.Enclosed ∧ g.Finished g.formulas ∧
    ∀ ordered, ∃ m, g.checkOrder ordered = .error (.misordered m) := by
  let g : Graph := {
    vertices := #[{ handle := 0, name := "a", related := [2] },
      { handle := 1, name := "a=b", declared := [0], called := [2], related := [3], color := .black },
      { handle := 2, name := "b", related := [0] },
      { handle := 3, name := "b=a", declared := [2], called := [0], related := [1], color := .black }]
    names := [("a", 0), ("b", 2)]
    formulas := [1, 3] }
  have hg : g.Enclosed := by decide
  have hblack : g.Finished g.formulas := by decide
  have hedge : g.Edge 1 3 := List.mem_singleton_self 3
  have hedge' : g.Edge 3 1 := List.mem_singleton_self 1
  exact ⟨g, hg, hblack, (no_order_accepted_iff hg hblack).2.mpr
    ⟨1, by decide, 3, by decide, .single hedge, .single hedge'⟩⟩

/-- The formula `a=a`, black, depends on itself: sorting fails, and the check accepts it by itself. -/
theorem loop_accepted : ∃ g : Graph, g.Enclosed ∧ g.Finished g.formulas ∧
    g.order.2 = .error (.cyclic (.acrossLines ["a=a", "a=a"])) ∧ g.checkOrder [1] = .ok () := by
  let g : Graph := {
    vertices := #[{ handle := 0, name := "a" },
      { handle := 1, name := "a=a", declared := [0], called := [0], related := [1], color := .black }]
    names := [("a", 0)]
    formulas := [1] }
  have hg : g.Enclosed := by decide
  exact ⟨g, hg, by decide, by decide +kernel, by decide⟩

end Graph

end EvalOrder
