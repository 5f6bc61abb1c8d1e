import EvalOrder.Proofs.Midway

/-!
# What sorting comes to

A search ends with an empty stack, or with an edge that closes a circle: one step keeps the invariant
(`Midway.step`), so a run does, and so do the searches from one root after another.

Results:
* `Midway.run`, `Midway.visit`, `Midway.visitAll`: what they come to.
* `sort_start`: what they begin with.
* **`sort_comes`**: sorting marks everything that the given vertices depend on, or reports a circle.
* `Closes.path`, `Closes.circle`: the failure is a circle of edges.
-/

namespace EvalOrder

namespace Search

open EvalOrder.Graph

variable {g₀ : Graph} {roots left : List Handle}

/-- What a search comes to that had left the vertices `left`: all of `goal` is black and nothing is grey, or
an edge closes a circle. -/
inductive Comes (g₀ : Graph) (roots left goal : List Handle) : Search × Except Failure Unit → Prop
  | done {s : Search} {left' : List Handle} : Midway g₀ roots s left' → s.stack = [] → left ⊆ left' →
      (∀ i ∈ goal, s.graph.colorOf i = some .black) → Comes g₀ roots left goal (s, .ok ())
  | circular {s : Search} {left' : List Handle} {e : Failure} : Midway g₀ roots s left' →
      Closes g₀ s e → Comes g₀ roots left goal (s, .error e)

/-- A run leaves all that has been entered. -/
theorem Midway.run (hclosed : g₀.ClosedFrom roots) {s : Search} (h : Midway g₀ roots s left) :
    Comes g₀ roots left (s.stack.map Frame.vertex) (Search.run s) := by
  -- by the recursion of the run; what has been left grows from step to step
  fun_induction Search.run s generalizing left with
  | case1 s hs =>
    refine .done h hs (List.Subset.refl _) ?_
    intro i hi
    rw [hs] at hi
    exact absurd hi List.not_mem_nil
  | case2 s top below hs e hstep =>
    obtain ⟨g, stack, rank⟩ := s
    obtain rfl : stack = top :: below := hs
    rcases h.step hclosed with ⟨s', hok, -⟩ | ⟨e', herror, hcloses⟩
    · cases hok.symm.trans hstep
    · obtain rfl := Except.error.inj (herror.symm.trans hstep)
      exact .circular h hcloses
  | case3 s top below hs s' hstep ih =>
    obtain ⟨g, stack, rank⟩ := s
    obtain rfl : stack = top :: below := hs
    rcases h.step hclosed with ⟨s'', hok, hnext, hkept⟩ | ⟨e', herror, -⟩
    · obtain rfl := Except.ok.inj (hok.symm.trans hstep)
      have hcomes := ih hnext
      generalize Search.run s'' = result at hcomes ⊢
      cases hcomes with
      | done hend hempty hsub' hblack =>
        refine .done hend hempty (List.Subset.trans (List.subset_append_left _ _) hsub') ?_
        intro i hi
        rcases hkept i hi with hi | hi
        · exact (hend.black i).mpr (.inl (hsub' hi))
        · exact hblack i hi
      | circular hend hcloses => exact .circular hend hcloses
    · cases herror.symm.trans hstep

/-- A search from a root makes it black. -/
theorem Midway.visit (hclosed : g₀.ClosedFrom roots) {g : Graph} {rank : Nat}
    (h : Midway g₀ roots ⟨g, [], rank⟩ left) {root : Handle} (hroot : root ∈ roots) (hlt : root < g₀.size) :
    Comes g₀ roots left [root] (Search.visit g rank root) := by
  obtain ⟨v, hv⟩ := exists_vertex ((h.recolored.lt_size_iff root).mpr hlt)
  have hcolor := colorOf_eq hv
  unfold Search.visit
  simp only [get_eq_ok_iff.mpr hv]
  split
  · rename_i hwhite
    rw [hwhite] at hcolor
    exact (h.enter hcolor rfl .bottom ⟨root, hroot, .refl⟩).run hclosed
  · rename_i hnot
    refine .done h rfl (List.Subset.refl _) ?_
    intro i hi
    obtain rfl := List.mem_singleton.mp hi
    cases hc : v.color with
    | white => exact absurd hc hnot
    | grey =>
      rw [hc] at hcolor
      exact absurd ((h.grey _).mp hcolor) List.not_mem_nil
    | black => rw [hcolor, hc]

/-- Searches from several roots make all of them black. -/
theorem Midway.visitAll (hclosed : g₀.ClosedFrom roots) :
    ∀ {handles : List Handle} {g : Graph} {rank : Nat} {left : List Handle},
      Midway g₀ roots ⟨g, [], rank⟩ left → (∀ h ∈ handles, h ∈ roots ∧ h < g₀.size) →
        Comes g₀ roots left handles (Search.visitAll g rank handles)
  | [], g, rank, left, h, _ => .done h rfl (List.Subset.refl _) fun _ hi => absurd hi List.not_mem_nil
  | root :: handles, g, rank, left, h, hroots => by
    obtain ⟨⟨hroot, hlt⟩, hroots⟩ := List.forall_mem_cons.mp hroots
    have hfirst := h.visit hclosed hroot hlt
    unfold Search.visitAll
    generalize Search.visit g rank root = result at hfirst ⊢
    cases hfirst with
    | circular hend hcloses => exact .circular hend hcloses
    | @done s left' hend hempty hsub hblack =>
      obtain ⟨g', stack, rank'⟩ := s
      obtain rfl : stack = [] := hempty
      have hrest := hend.visitAll hclosed hroots
      simp only
      generalize Search.visitAll g' rank' handles = result' at hrest ⊢
      cases hrest with
      | circular hend' hcloses => exact .circular hend' hcloses
      | done hend' hempty' hsub' hblack' =>
        refine .done hend' hempty' (List.Subset.trans hsub hsub') ?_
        intro i hi
        rcases List.mem_cons.mp hi with rfl | hi
        · refine (hend'.black i).mpr (((hend.black i).mp (hblack i (List.mem_singleton_self i))).imp ?_ id)
          exact fun hmem => hsub' hmem
        · exact hblack' i hi

/-- The failure of a search is a circle of edges: the entered vertices from the one met again on. -/
theorem Closes.path {s : Search} {e : Failure} (hs : Midway g₀ roots s left) (h : Closes g₀ s e) :
    ∃ i rest labels, e = .cyclic (.acrossLines labels) ∧ s.graph.labels (i :: (rest ++ [i])) = .ok labels ∧
      g₀.Circle i rest ∧ i :: rest <:+ (s.stack.map Frame.vertex).reverse := by
  obtain ⟨top, below, i, hstack, hedge, hmem, rfl⟩ := h
  have hframes := hs.frames
  have hentered := hs.entered
  have hlt : ∀ f ∈ top :: below, f.vertex < s.graph.size := fun f hf => hs.lt_size (hstack ▸ hf)
  rw [hstack] at hframes hentered hmem
  obtain ⟨rest, labels, hclose, hlabels, hcircle, hsuffix⟩ := closeCycle_eq hframes hentered hlt hedge hmem
  rw [hstack]
  exact ⟨i, rest, labels, hclose, hlabels, hcircle, hsuffix⟩

/-- All vertices of the circle have been reached. -/
theorem Closes.circle {s : Search} {e : Failure} (hs : Midway g₀ roots s left) (h : Closes g₀ s e) :
    ∃ i rest labels, e = .cyclic (.acrossLines labels) ∧ s.graph.labels (i :: (rest ++ [i])) = .ok labels ∧
      g₀.Circle i rest ∧ ∀ j ∈ i :: rest, ∃ r ∈ roots, Relation.ReflTransGen g₀.Edge r j := by
  obtain ⟨i, rest, labels, he, hlabels, hcircle, hsuffix⟩ := h.path hs
  exact ⟨i, rest, labels, he, hlabels, hcircle, fun j hj =>
    hs.reached j (.inr (List.mem_reverse.mp (hsuffix.mem hj)))⟩

end Search

namespace Graph

open Search

/-- Sorting is searching after resetting. -/
theorem sort_of_reset {g g₀ : Graph} {handles : List Handle} (h : g.resetAll handles = (g₀, .ok ())) :
    g.sort handles = ((Search.visitAll g₀ 1 handles).1.graph, (Search.visitAll g₀ 1 handles).2) := by
  unfold sort
  simp only [h]

/-- A search from some vertices begins with these made white and nothing grey. -/
theorem sort_start {g : Graph} {handles : List Handle} (hlt : ∀ h ∈ handles, h < g.size)
    (hclosed : g.ClosedFrom handles) (hgrey : ∀ h, g.colorOf h = some .grey → h ∈ handles) :
    ∃ g₀, g.resetAll handles = (g₀, .ok ()) ∧ g.Recolored g₀ ∧
      (∀ h : Handle, g₀.vertices[h]? =
        if h ∈ handles then g.vertices[h]?.map Vertex.reset else g.vertices[h]?) ∧
      g₀.ClosedFrom handles ∧ Midway g₀ handles ⟨g₀, [], 1⟩ [] := by
  obtain ⟨g₀, hreset, hsame, hvertices⟩ := resetAll_eq hlt
  have hnone : ∀ h, g₀.colorOf h ≠ some .grey := by
    intro h hg
    rw [colorOf_resetAll hvertices hlt] at hg
    split at hg
    · cases hg
    · rename_i hnot
      exact hnot (hgrey h hg)
  refine ⟨g₀, hreset, hsame, hvertices, ?_, midway_start hnone handles⟩
  intro r hr a b hpath hab
  rw [hsame.edge_eq] at hpath hab
  exact hsame.size_eq ▸ hclosed r hr a b hpath hab

/-- **What sorting comes to.** The given vertices are made white, and then searched from. -/
theorem sort_comes {g : Graph} {handles : List Handle} (hlt : ∀ h ∈ handles, h < g.size)
    (hclosed : g.ClosedFrom handles) (hgrey : ∀ h, g.colorOf h = some .grey → h ∈ handles) :
    ∃ g₀ s outcome, g.sort handles = (s.graph, outcome) ∧ g.Recolored g₀ ∧
      (∀ h, g₀.colorOf h = if h ∈ handles then some .white else g.colorOf h) ∧
      Comes g₀ handles [] handles (s, outcome) := by
  obtain ⟨g₀, hreset, hsame, hvertices, hclosed', hstart⟩ := sort_start hlt hclosed hgrey
  have hroots : ∀ h ∈ handles, h ∈ handles ∧ h < g₀.size := fun h hh =>
    ⟨hh, hsame.size_eq ▸ hlt h hh⟩
  exact ⟨g₀, _, _, sort_of_reset hreset, hsame, colorOf_resetAll hvertices hlt,
    hstart.visitAll hclosed' hroots⟩

end Graph

end EvalOrder
