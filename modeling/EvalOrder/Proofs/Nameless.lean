import EvalOrder.Proofs.Mirror
import EvalOrder.Proofs.Prefixes

/-!
# What vertices are called

Searching looks at what vertices depend on and at their colours, and never at what they are called. So on two graphs
whose vertices are the same but for that (`SameShape`) it does the same: it takes the same steps, leaves the vertices
with the same ranks, and fails alike, with the same fault or with a circle of the same formulas, of which each graph
tells how they are called in it (`SameCircle`).

Results:
* `SameShape.update`: a change that does not look at names, made in both graphs.
* `Paired.step`, `Paired.run`, `Paired.visitAll`: searches of two such graphs.
* **`SameShape.order`**: their orders.
-/

namespace EvalOrder

namespace Vertex

/-- The vertex without what it is called. -/
def nameless (v : Vertex) : Vertex := { v with name := "" }

theorem nameless_enter (v : Vertex) : v.enter.nameless = v.nameless.enter := rfl

theorem nameless_leave (rank : Nat) (v : Vertex) : (v.leave rank).nameless = v.nameless.leave rank := rfl

theorem nameless_reset (v : Vertex) : v.reset.nameless = v.nameless.reset := rfl

end Vertex

namespace Graph

/-- The graphs have the same vertices but for what these are called, and the same formulas. -/
structure SameShape (g g' : Graph) : Prop where
  vertices : ∀ h : Handle, g'.vertices[h]?.map Vertex.nameless = g.vertices[h]?.map Vertex.nameless
  formulas : g'.formulas = g.formulas

/-- The failures are a circle of the same formulas, told by what they are called in each of the graphs. -/
def SameCircle (g g' : Graph) (e e' : Failure) : Prop :=
  ∃ hs labels labels', (∀ h ∈ hs, h ∈ g.formulas) ∧ g.labels hs = .ok labels ∧ g'.labels hs = .ok labels' ∧
    e = .cyclic (.acrossLines labels) ∧ e' = .cyclic (.acrossLines labels')

namespace SameShape

variable {g g' : Graph}

/-- What does not look at names is the same. -/
theorem map_eq (h : g.SameShape g') {α : Type} (f : Vertex → α) (hf : ∀ v : Vertex, f v.nameless = f v)
    (i : Handle) : g'.vertices[i]?.map f = g.vertices[i]?.map f :=
  map_eq_of_part h.vertices f hf i

theorem size_eq (h : g.SameShape g') : g'.size = g.size := size_eq_of_part h.vertices

theorem rankOf_eq (h : g.SameShape g') (i : Handle) : g'.rankOf i = g.rankOf i := by
  rw [rankOf, rankOf, h.map_eq Vertex.exitRank fun _ => rfl]

theorem ranked_eq (h : g.SameShape g') : g'.ranked = g.ranked := by
  simp only [ranked, h.rankOf_eq, h.formulas]

/-- The vertices of a handle look the same to a search. -/
theorem exists_vertex (h : g.SameShape g') {i : Handle} {v : Vertex} (hv : g.vertices[i]? = some v) :
    ∃ v', g'.vertices[i]? = some v' ∧ v'.related = v.related ∧ v'.color = v.color := by
  have hmap := h.map_eq (fun v => (v.related, v.color)) (fun _ => rfl) i
  rw [hv] at hmap
  obtain ⟨v', hv', hsame⟩ := Option.map_eq_some_iff.mp hmap
  obtain ⟨hrelated, hcolor⟩ := Prod.mk.inj hsame
  exact ⟨v', hv', hrelated, hcolor⟩

theorem vertex_none (h : g.SameShape g') {i : Handle} (hv : g.vertices[i]? = none) : g'.vertices[i]? = none := by
  have hmap := h.vertices i
  rwa [hv, Option.map_none, Option.map_eq_none_iff] at hmap

/-- Changing a vertex in both graphs, by what does not look at names. -/
theorem update (h : g.SameShape g') {f : Vertex → Vertex} (hf : ∀ v : Vertex, (f v).nameless = f v.nameless)
    (i : Handle) : (g.update i f).SameShape (g'.update i f) where
  vertices j := by
    have hcomp : Vertex.nameless ∘ f = f ∘ Vertex.nameless := funext hf
    rw [vertices_update, vertices_update]
    split
    · rw [Option.map_map, Option.map_map, hcomp, ← Option.map_map, ← Option.map_map, h.vertices]
    · exact h.vertices j
  formulas := h.formulas

end SameShape

end Graph

namespace Search

open EvalOrder.Graph

/-! ## Searches -/

/-- Failures of searches of two graphs: the same fault, or the same circle. -/
def SameFailure (g₀ g₀' : Graph) (e e' : Failure) : Prop :=
  (∃ f, e = .fault f ∧ e' = .fault f) ∨ g₀.SameCircle g₀' e e'

/-- Two searches that are equally far, of graphs whose vertices are the same but for what they are called; at the
beginning these were `g₀` and `g₀'`. -/
structure Paired (g₀ g₀' : Graph) (s s' : Search) : Prop where
  shape : s.graph.SameShape s'.graph
  recolored : g₀.Recolored s.graph
  recolored' : g₀'.Recolored s'.graph
  stack : s'.stack = s.stack
  rank : s'.rank = s.rank

/-- Searches that have ended alike. -/
structure PairedEnd (g₀ g₀' : Graph) (x x' : Search × Except Failure Unit) : Prop where
  search : Paired g₀ g₀' x.1 x'.1
  outcome : Together (SameFailure g₀ g₀') Eq x.2 x'.2

variable {g₀ g₀' g g' : Graph} {rank : Nat} {top : Frame} {below stack : List Frame}

namespace Paired

/-- With one vertex changed in both. -/
theorem update {s s' : Search} (h : Paired g₀ g₀' s s') (i : Handle) {f : Vertex → Vertex}
    (hf : ∀ v : Vertex, (f v).nameless = f v.nameless) (hreset : ∀ v : Vertex, (f v).reset = v.reset)
    (stack : List Frame) (rank : Nat) :
    Paired g₀ g₀' ⟨s.graph.update i f, stack, rank⟩ ⟨s'.graph.update i f, stack, rank⟩ where
  shape := h.shape.update hf i
  recolored := h.recolored.trans (recolored_update _ i hreset)
  recolored' := h.recolored'.trans (recolored_update _ i hreset)
  stack := rfl
  rank := rfl

/-- Formulas have labels in both graphs. -/
theorem exists_labels {s s' : Search} (h : Paired g₀ g₀' s s') (hrange : ∀ f ∈ g₀.formulas, f < g₀.size)
    {hs : List Handle} (hformulas : ∀ i ∈ hs, i ∈ g₀.formulas) :
    ∃ labels labels', s.graph.labels hs = .ok labels ∧ s'.graph.labels hs = .ok labels' := by
  have hlt : ∀ i ∈ hs, i < s.graph.size := fun i hi => h.recolored.size_eq ▸ hrange i (hformulas i hi)
  obtain ⟨labels, hlabels⟩ := Graph.exists_labels hlt
  obtain ⟨labels', hlabels'⟩ := Graph.exists_labels (g := s'.graph) (h.shape.size_eq ▸ hlt)
  exact ⟨labels, labels', hlabels, hlabels'⟩

/-- They close the same circle, if there are only formulas on the stack. -/
theorem closeCycle (h : Paired g₀ g₀' ⟨g, stack, rank⟩ ⟨g', stack, rank⟩)
    (hrange : ∀ f ∈ g₀.formulas, f < g₀.size) (hstack : ∀ f ∈ stack, f.vertex ∈ g₀.formulas) (t : Handle) :
    SameFailure g₀ g₀' (closeCycle g stack t) (closeCycle g' stack t) := by
  unfold Search.closeCycle
  by_cases ht : t ∈ (stack.map Frame.vertex).reverse
  · have hentered : ∀ i ∈ (stack.map Frame.vertex).reverse, i ∈ g₀.formulas := by
      intro i hi
      obtain ⟨f, hf, rfl⟩ := List.mem_map.mp (List.mem_reverse.mp hi)
      exact hstack f hf
    have hcircle : ∀ i ∈ (stack.map Frame.vertex).reverse.dropWhile (· ≠ t) ++ [t], i ∈ g₀.formulas := by
      intro i hi
      rcases List.mem_append.mp hi with hi | hi
      · exact hentered i ((List.dropWhile_sublist _).mem hi)
      · exact List.mem_singleton.mp hi ▸ hentered t ht
    obtain ⟨labels, labels', hlabels, hlabels'⟩ := h.exists_labels hrange hcircle
    simp only [if_pos ht, hlabels, hlabels']
    exact .inr ⟨_, labels, labels', hcircle, h.recolored.labels_eq_ok_iff.mp hlabels,
      h.recolored'.labels_eq_ok_iff.mp hlabels', rfl, rfl⟩
  · simp only [if_neg ht]
    exact .inl ⟨_, rfl, rfl⟩

/-- **They take the same step.** -/
theorem step (h : Paired g₀ g₀' ⟨g, top :: below, rank⟩ ⟨g', top :: below, rank⟩)
    (hrange : ∀ f ∈ g₀.formulas, f < g₀.size) (hstack : ∀ f ∈ top :: below, f.vertex ∈ g₀.formulas) :
    Together (SameFailure g₀ g₀') (Paired g₀ g₀') (step g rank top below) (step g' rank top below) := by
  have hshape : g.SameShape g' := h.shape
  have hmissing : SameFailure g₀ g₀' (.fault .handle) (.fault .handle) := .inl ⟨_, rfl, rfl⟩
  cases hv : g.vertices[top.vertex]? with
  | none =>
    simp only [Search.step, Graph.get, hv, hshape.vertex_none hv, bind, Except.bind]
    exact .error hmissing
  | some v =>
    obtain ⟨v', hv', hrelated, -⟩ := hshape.exists_vertex hv
    cases ht : v.related[top.followed]? with
    | none =>
      rw [step_of_none hv ht, step_of_none hv' (hrelated ▸ ht)]
      exact .ok (h.update top.vertex (Vertex.nameless_leave rank) (Vertex.reset_leave rank) below (rank + 1))
    | some t =>
      have ht' : v'.related[top.followed]? = some t := hrelated ▸ ht
      cases hw : g.vertices[t]? with
      | none =>
        simp only [Search.step, Graph.get, hv, hv', ht, ht', hw, hshape.vertex_none hw, bind, Except.bind]
        exact .error hmissing
      | some w =>
        obtain ⟨w', hw', -, hcolor⟩ := hshape.exists_vertex hw
        rw [step_of_some rank below hv ht hw, step_of_some rank below hv' ht' hw', hcolor]
        cases w.color with
        | grey => exact .error (h.closeCycle hrange hstack t)
        | black => exact .ok ⟨hshape, h.recolored, h.recolored', rfl, rfl⟩
        | white => exact .ok (h.update t Vertex.nameless_enter Vertex.reset_enter _ _)

/-- **They run to the same end.** -/
theorem run {s s' : Search} (h : Paired g₀ g₀' s s') (hrange : ∀ f ∈ g₀.formulas, f < g₀.size)
    (hc : Confined (· ∈ g₀.formulas) s) : PairedEnd g₀ g₀' (Search.run s) (Search.run s') := by
  obtain ⟨g', stack', rank'⟩ := s'
  obtain rfl : stack' = s.stack := h.stack
  obtain rfl : rank' = s.rank := h.rank
  -- by the run of the first search; the graph of the second goes along
  fun_induction Search.run s generalizing g' with
  | case1 s hs =>
    rw [Recursion.run_of_empty (s := ⟨g', s.stack, s.rank⟩) hs]
    exact ⟨h, .ok rfl⟩
  | case2 s top below hs e hstep =>
    obtain ⟨g, stack, rank⟩ := s
    obtain rfl : stack = top :: below := hs
    have htogether := h.step hrange hc.stack
    rw [hstep] at htogether
    generalize hstep' : Search.step g' rank top below = outcome' at htogether
    cases htogether with
    | error he =>
      rw [Recursion.run_of_error hstep']
      exact ⟨h, .error he⟩
  | case3 s top below hs s₁ hstep ih =>
    obtain ⟨g, stack, rank⟩ := s
    obtain rfl : stack = top :: below := hs
    have htogether := h.step hrange hc.stack
    rw [hstep] at htogether
    generalize hstep' : Search.step g' rank top below = outcome' at htogether
    cases htogether with
    | @ok _ s₁' hnext =>
      rw [Recursion.run_of_step hstep']
      obtain ⟨g₁', stack₁, rank₁⟩ := s₁'
      obtain rfl : stack₁ = s₁.stack := hnext.stack
      obtain rfl : rank₁ = s₁.rank := hnext.rank
      exact ih (hc.step hstep).1 g₁' hnext

theorem visit (h : Paired g₀ g₀' ⟨g, [], rank⟩ ⟨g', [], rank⟩) (hrange : ∀ f ∈ g₀.formulas, f < g₀.size)
    (hc : Confined (· ∈ g₀.formulas) ⟨g, [], rank⟩) {root : Handle} (hroot : root ∈ g₀.formulas) :
    PairedEnd g₀ g₀' (Search.visit g rank root) (Search.visit g' rank root) := by
  have hshape : g.SameShape g' := h.shape
  have hlt : root < g.size := h.recolored.size_eq ▸ hrange root hroot
  obtain ⟨v, hv⟩ := Graph.exists_vertex hlt
  obtain ⟨v', hv', -, hcolor⟩ := hshape.exists_vertex hv
  unfold Search.visit
  simp only [get_eq_ok_iff.mpr hv, get_eq_ok_iff.mpr hv', hcolor]
  split
  · have henter : g.Touches (· ∈ g₀.formulas) (g.update root Vertex.enter) :=
      .update hroot Vertex.reset_enter (by simp [Vertex.enter])
    exact (h.update root Vertex.nameless_enter Vertex.reset_enter [⟨root, 0⟩] rank).run hrange
      (hc.touches henter (by simpa using hroot) rank)
  · exact ⟨h, .ok rfl⟩

/-- Searches from several formulas. -/
theorem visitAll (hrange : ∀ f ∈ g₀.formulas, f < g₀.size) :
    ∀ {handles : List Handle} {g g' : Graph} {rank : Nat}, Paired g₀ g₀' ⟨g, [], rank⟩ ⟨g', [], rank⟩ →
      Confined (· ∈ g₀.formulas) ⟨g, [], rank⟩ → (∀ h ∈ handles, h ∈ g₀.formulas) →
        PairedEnd g₀ g₀' (Search.visitAll g rank handles) (Search.visitAll g' rank handles)
  | [], _, _, _, h, _, _ => ⟨h, .ok rfl⟩
  | root :: handles, g, g', rank, h, hc, hroots => by
    obtain ⟨hroot, hroots⟩ := List.forall_mem_cons.mp hroots
    obtain ⟨hfirst, hout⟩ := h.visit hrange hc hroot
    obtain ⟨hend, -⟩ := hc.visit fun _ => hroot
    unfold Search.visitAll
    generalize Search.visit g rank root = result at hfirst hout hend ⊢
    generalize Search.visit g' rank root = result' at hfirst hout ⊢
    obtain ⟨s, outcome⟩ := result
    obtain ⟨s', outcome'⟩ := result'
    cases hout with
    | error he => exact ⟨hfirst, .error he⟩
    | ok _ =>
      have hrank : s'.rank = s.rank := hfirst.rank
      simp only [hrank]
      exact visitAll hrange ⟨hfirst.shape, hfirst.recolored, hfirst.recolored', rfl, rfl⟩
        (hend.touches (.refl _) (by simp) _) hroots

end Paired

end Search

namespace Graph

/-! ## Orders -/

/-- Resetting formulas in both graphs. -/
theorem SameShape.resetAll : ∀ {handles : List Handle} {g g' : Graph}, g.SameShape g' →
    (∀ h ∈ handles, h < g.size) → ∃ g₁ g₁', g.resetAll handles = (g₁, .ok ()) ∧
      g'.resetAll handles = (g₁', .ok ()) ∧ g₁.SameShape g₁' := by
  intro handles g g' h hlt
  rw [Recursion.resetAll_eq_foldl hlt, Recursion.resetAll_eq_foldl (h.size_eq ▸ hlt)]
  refine ⟨_, _, rfl, rfl, ?_⟩
  clear hlt
  induction handles generalizing g g' with
  | nil => exact h
  | cons i handles ih => exact ih (h.update Vertex.nameless_reset i)

/-- **The orders of graphs whose vertices are the same but for what they are called.** -/
theorem SameShape.order {g g' : Graph} (h : g.SameShape g') (hg : g.Linked) :
    g.order.1.SameShape g'.order.1 ∧ Together (g.SameCircle g') Eq g.order.2 g'.order.2 := by
  have hleaves := leaves hg
  obtain ⟨g₁, g₁', hreset, hreset', hshape⟩ := h.resetAll hg.inRange
  have hrecolored : g.Recolored g₁ := by simpa [hreset] using recolored_resetAll g.formulas g
  have hrecolored' : g'.Recolored g₁' := by simpa [hreset'] using recolored_resetAll g.formulas g'
  have hconfined : Search.Confined (· ∈ g.formulas) ⟨g₁, [], 1⟩ :=
    ⟨by simp, fun a b ha hab _ => hg.inner a ha b (hrecolored.edge_eq ▸ hab)⟩
  have hpaired : Search.Paired g g' ⟨g₁, [], 1⟩ ⟨g₁', [], 1⟩ := ⟨hshape, hrecolored, hrecolored', rfl, rfl⟩
  obtain ⟨hend, hout⟩ := Search.Paired.visitAll hg.inRange hpaired hconfined fun i (hi : i ∈ g.formulas) => hi
  rw [sort_of_reset hreset] at hleaves
  rw [order_eq_sort, order_eq_sort, h.formulas, sort_of_reset hreset, sort_of_reset hreset']
  generalize Search.visitAll g₁ 1 g.formulas = result at hleaves hend hout ⊢
  generalize Search.visitAll g₁' 1 g.formulas = result' at hend hout ⊢
  obtain ⟨s, outcome⟩ := result
  obtain ⟨s', outcome'⟩ := result'
  refine ⟨hend.shape, ?_⟩
  cases hout with
  | ok _ => exact .ok hend.shape.ranked_eq.symm
  | error he =>
    cases hleaves with
    | circular _ _ _ _ =>
      rcases he with ⟨f, hfault, -⟩ | hcircle
      · cases hfault
      · exact .error hcircle

end Graph

end EvalOrder
