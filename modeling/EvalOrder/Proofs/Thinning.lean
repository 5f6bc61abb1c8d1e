import EvalOrder.Proofs.Distinct
import EvalOrder.Proofs.Order
import EvalOrder.Proofs.Recursion

/-!
# Repeated edges

An edge may be added more than once. A search does not mind: when it comes to an edge again, the vertex that the
edge leads to has been left, or the search would not have come that far. So the search of a graph is that of the
graph in which each edge is there once (`thin`), and all that it finds out is the same.

Results:
* `colorOf_thin`, `relatedOf_thin`, `update_thin`: what each edge once means for a graph.
* `visit_follow_thin`: for a visit.
* `sort_thin`, **`order_thin`**: for sorting.
* `order_eq_of_thin_eq`: graphs that differ in repeated edges only are ordered alike.
-/

namespace EvalOrder

/-! ## Each edge once -/

/-- The vertex with each edge once. -/
def Vertex.thin (v : Vertex) : Vertex := { v with related := distinct v.related }

namespace Graph

/-- The graph with each edge once. -/
def thin (g : Graph) : Graph := { g with vertices := g.vertices.map Vertex.thin }

variable {g : Graph}

theorem vertices_thin (g : Graph) (h : Handle) : g.thin.vertices[h]? = g.vertices[h]?.map Vertex.thin :=
  Array.getElem?_map

/-- What does not look at edges is the same. -/
theorem map_thin {α : Type} (f : Vertex → α) (hf : ∀ v : Vertex, f v.thin = f v) (h : Handle) :
    g.thin.vertices[h]?.map f = g.vertices[h]?.map f := by
  have hcomp : f ∘ Vertex.thin = f := funext hf
  rw [vertices_thin, Option.map_map, hcomp]

theorem colorOf_thin (g : Graph) (h : Handle) : g.thin.colorOf h = g.colorOf h :=
  map_thin Vertex.color (fun _ => rfl) h

theorem nameOf?_thin (g : Graph) (h : Handle) : g.thin.nameOf? h = g.nameOf? h :=
  map_thin Vertex.name (fun _ => rfl) h

theorem rankOf_thin (g : Graph) (h : Handle) : g.thin.rankOf h = g.rankOf h :=
  congrArg (·.getD 0) (map_thin Vertex.exitRank (fun _ => rfl) h)

theorem size_thin (g : Graph) : g.thin.size = g.size := Array.size_map

theorem relatedOf_thin (g : Graph) (h : Handle) : g.thin.relatedOf h = distinct (g.relatedOf h) := by
  unfold relatedOf
  rw [vertices_thin]
  cases g.vertices[h]? <;> rfl

theorem edge_thin_iff {a b : Handle} : g.thin.Edge a b ↔ g.Edge a b := by
  rw [Edge, relatedOf_thin, mem_distinct, Edge]

theorem update_thin (g : Graph) (h : Handle) {f : Vertex → Vertex} (hf : ∀ v : Vertex, (f v).thin = f v.thin) :
    (g.update h f).thin = g.thin.update h f := by
  have hvertices : (g.update h f).thin.vertices = (g.thin.update h f).vertices := by
    refine Array.ext_getElem? fun i => ?_
    rw [vertices_thin, vertices_update, vertices_update, vertices_thin]
    split
    · cases g.vertices[i]? <;> simp [hf]
    · rfl
  simp only [thin, update] at hvertices ⊢
  rw [hvertices]

theorem ranked_thin (g : Graph) : g.thin.ranked = g.ranked := by
  unfold ranked
  simp only [rankOf_thin]
  rfl

theorem Linked.thin (hg : g.Linked) : g.thin.Linked where
  once := hg.once
  inRange := size_thin g ▸ hg.inRange
  inner f hf t ht := hg.inner f hf t (edge_thin_iff.mp ht)
  grey h hc := hg.grey h (colorOf_thin g h ▸ hc)

end Graph

namespace Recursion

open EvalOrder.Graph

variable {g : Graph} {rank : Nat} {path : List Handle}

/-- What visiting comes to, with each edge once. -/
def Visited.thin (r : Visited) : Visited := { r with graph := r.graph.thin }

theorem Visited.andThen_thin {r : Visited} {next next' : Graph → Nat → Visited}
    (h : r.outcome = .ok () → next' r.graph.thin r.rank = (next r.graph r.rank).thin) :
    r.thin.andThen next' = (r.andThen next).thin := by
  cases hout : r.outcome with
  | error e => rw [andThen_of_error hout, andThen_of_error (r := r.thin) hout]
  | ok u =>
    rw [andThen_of_ok hout, andThen_of_ok (r := r.thin) hout]
    exact h hout

theorem circle_thin (g : Graph) (path : List Handle) (h : Handle) : circle g.thin path h = circle g path h := by
  unfold circle
  rw [funext (nameOf?_thin g)]

/-- A visit that ends well leaves its vertex black. -/
theorem colorOf_visit {h : Handle} (hw : g.colorOf h = some .white)
    (hok : (visit g rank path h hw).1.outcome = .ok ()) :
    (visit g rank path h hw).1.graph.colorOf h = some .black := by
  have hinner : Keeps (g.update h Vertex.enter)
      (follow (g.update h Vertex.enter) rank (path ++ [h]) (g.relatedOf h)).1 := keeps_follow
  have hsame := (recolored_update g h Vertex.reset_enter).trans hinner.recolored
  have hlt : h < g.size := lt_size_of_colorOf hw
  rw [visit_eq] at hok ⊢
  cases hout : (follow (g.update h Vertex.enter) rank (path ++ [h]) (g.relatedOf h)).1.outcome with
  | error e =>
    rw [Visited.andThen_of_error hout, hout] at hok
    cases hok
  | ok u =>
    rw [Visited.andThen_of_ok hout, colorOf_leave (hsame.size_eq ▸ hlt), if_pos rfl]

/-- All of the vertices have been left. -/
def AllBlack (g : Graph) (seen : List Handle) : Prop := ∀ t ∈ seen, g.colorOf t = some .black

namespace AllBlack

variable {seen : List Handle} {t : Handle}

theorem nil (g : Graph) : AllBlack g [] := fun _ ht => absurd ht List.not_mem_nil

theorem concat (h : AllBlack g seen) (ht : g.colorOf t = some .black) : AllBlack g (seen ++ [t]) := by
  intro i hi
  rcases List.mem_append.mp hi with hi | hi
  · exact h i hi
  · rw [List.mem_singleton.mp hi, ht]

theorem of_keeps (h : AllBlack g seen) {r : Visited} (hr : Keeps g r) : AllBlack r.graph seen :=
  fun i hi => hr.black i (h i hi)

/-- A vertex that has not been left is not among them. -/
theorem fresh_cons (h : AllBlack g seen) (ht : g.colorOf t ≠ some .black) (ts : List Handle) :
    fresh seen (t :: ts) = t :: fresh (seen ++ [t]) ts :=
  fresh_of_not_mem (fun hmem => ht (h t hmem)) ts

end AllBlack

/-! ## The search -/

/-- A visit does the same with each edge once. Of the vertices that are left to follow, those that have been
followed before may be left out: they are black. -/
theorem visit_follow_thin :
    (∀ g rank path h hw, ∀ hw' : g.thin.colorOf h = some .white,
      (visit g.thin rank path h hw').1 = (visit g rank path h hw).1.thin) ∧
    ∀ g rank path ts, ∀ seen, AllBlack g seen →
      (follow g.thin rank path (fresh seen ts)).1 = (follow g rank path ts).1.thin := by
  apply visit_follow_induction
    (V := fun g rank path h r => ∀ hw' : g.thin.colorOf h = some .white, (visit g.thin rank path h hw').1 = r.thin)
    (F := fun g rank path ts r => ∀ seen, AllBlack g seen →
      (follow g.thin rank path (fresh seen ts)).1 = r.thin)
  case visit =>
    intro g rank path h r hw hinner hw'
    have hsame := hinner [] (.nil _)
    rw [visit_eq, relatedOf_thin, distinct_eq_fresh, ← update_thin g h (f := Vertex.enter) fun _ => rfl, hsame]
    refine Visited.andThen_thin fun _ => ?_
    rw [← update_thin r.graph h (f := Vertex.leave r.rank) fun _ => rfl]
    rfl
  case nil => exact fun _ _ => follow_nil
  case missing =>
    intro g rank path t ts hc seen hseen
    rw [hseen.fresh_cons (by simp [hc]), follow_of_missing (by rw [colorOf_thin, hc])]
    rfl
  case grey =>
    intro g rank path t ts hc seen hseen
    rw [hseen.fresh_cons (by simp [hc]), follow_of_grey (by rw [colorOf_thin, hc]), circle_thin]
    rfl
  case black =>
    intro g rank path t ts r hc hrest seen hseen
    by_cases ht : t ∈ seen
    · rw [fresh_of_mem ht]
      exact hrest seen hseen
    · rw [fresh_of_not_mem ht, follow_of_black (by rw [colorOf_thin, hc])]
      exact hrest (seen ++ [t]) (hseen.concat hc)
  case failed =>
    intro g rank path t ts r e hc hfirst herror seen hseen
    have hc' : g.thin.colorOf t = some .white := by rw [colorOf_thin, hc]
    rw [hseen.fresh_cons (by simp [hc]), follow_of_white hc', hfirst hc',
      Visited.andThen_of_error (r := r.thin) herror]
  case white =>
    intro g rank path t ts r r' hc hr hfirst hok hrest seen hseen
    subst hr
    have hc' : g.thin.colorOf t = some .white := by rw [colorOf_thin, hc]
    rw [hseen.fresh_cons (by simp [hc]), follow_of_white hc', hfirst hc',
      Visited.andThen_of_ok (r := (visit g rank path t hc).1.thin) hok]
    exact hrest (seen ++ [t]) ((hseen.of_keeps (keeps_visit hc)).concat (colorOf_visit hc hok))

theorem visitEach_thin : ∀ (handles : List Handle) (g : Graph) (rank : Nat),
    visitEach g.thin rank handles = (visitEach g rank handles).thin
  | [], _, _ => rfl
  | h :: handles, g, rank => by
    by_cases hw : g.colorOf h = some .white
    · have hw' : g.thin.colorOf h = some .white := by rw [colorOf_thin, hw]
      rw [visitEach_of_white hw, visitEach_of_white hw', visit_follow_thin.1 g rank [] h hw hw']
      exact Visited.andThen_thin fun _ => visitEach_thin handles _ _
    · have hw' : g.thin.colorOf h ≠ some .white := by rwa [colorOf_thin]
      rw [visitEach_of_ne_white hw, visitEach_of_ne_white hw', visitEach_thin handles g rank]

theorem sort_thin (g : Graph) (handles : List Handle) :
    sort g.thin handles = ((sort g handles).1.thin, (sort g handles).2) := by
  have hreset : ∀ (hs : List Handle) (g : Graph), hs.foldl (fun g h => g.update h Vertex.reset) g.thin =
      (hs.foldl (fun g h => g.update h Vertex.reset) g).thin := by
    intro hs
    induction hs with
    | nil => exact fun _ => rfl
    | cons h hs ih =>
      intro g
      rw [List.foldl_cons, ← update_thin g h (f := Vertex.reset) fun _ => rfl, ih, List.foldl_cons]
  rw [sort, hreset, visitEach_thin, sort]
  rfl

end Recursion

namespace Graph

/-- **Ordering does the same with each edge once.** -/
theorem order_thin {g : Graph} (hg : g.Linked) (hclosed : ∀ a b, g.Edge a b → b < g.size) :
    g.thin.order = (g.order.1.thin, g.order.2) := by
  have hclosed' : ∀ a b, g.thin.Edge a b → b < g.thin.size := fun a b hab =>
    size_thin g ▸ hclosed a b (edge_thin_iff.mp hab)
  have hsort : g.thin.sort g.thin.formulas = ((g.sort g.formulas).1.thin, (g.sort g.formulas).2) := by
    rw [Recursion.sort_eq hclosed' hg.thin.inRange hg.thin.grey, Recursion.sort_eq hclosed hg.inRange hg.grey]
    exact Recursion.sort_thin g g.formulas
  unfold order
  rw [hsort]
  generalize g.sort g.formulas = result
  obtain ⟨g', outcome⟩ := result
  cases outcome with
  | error e => rfl
  | ok u => simp only [ranked_thin]

/-- Graphs that differ in repeated edges only are ordered alike. -/
theorem order_eq_of_thin_eq {g g' : Graph} (hg : g.Linked) (hclosed : ∀ a b, g.Edge a b → b < g.size)
    (hg' : g'.Linked) (hclosed' : ∀ a b, g'.Edge a b → b < g'.size) (hthin : g.thin = g'.thin) :
    g.order.2 = g'.order.2 ∧ ∀ h, g.order.1.rankOf h = g'.order.1.rankOf h := by
  have horder := order_thin hg hclosed
  rw [hthin, order_thin hg' hclosed'] at horder
  obtain ⟨hgraph, hout⟩ := Prod.mk.inj horder
  refine ⟨hout.symm, fun h => ?_⟩
  rw [← rankOf_thin, ← hgraph, rankOf_thin]

end Graph

end EvalOrder
