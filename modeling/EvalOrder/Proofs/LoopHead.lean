import EvalOrder.Proofs.Locality
import EvalOrder.Proofs.Order

/-!
# The head of the loop

A sort goes through its roots, and from each white one it goes round a loop, once for every step of the search.
`AtHead` holds of the states in which it comes to the head of this loop. Its rules are those of the loop, and they keep
account of the roots that are still to come and of the vertices that have been left. From each of these states the
search goes on as the sort does, and the sort ends in one of them.

In all of them the search is `Midway`. What that says of the graph is written out in `LoopInvariant` by the mark of
each frame, which is the number of edges that it has followed.

Results:
* `AtHead.goOn_eq`: what is left of a search at the head of its loop is what is left of the sort.
* `AtHead.visitAll`: a sort ends at the head of the loop, with nothing entered or in a step that fails.
* `AtHead.midway`, `Midway.loopInvariant`: the invariant holds at the head.
* `Midway.endsAt`: a step from there fails with a circle only.
* **`loop_invariant`**: the invariant of the loop, and how steps and sorts fail.
-/

namespace EvalOrder

namespace Search

open EvalOrder.Graph

/-! ## The states at the head -/

/-- The states of a search from `handles` at the head of its loop, with the roots that are still to come and the
vertices that have been left so far, in this order. -/
inductive AtHead (g : Graph) (handles : List Handle) : List Handle → Search → List Handle → Prop
  | start {g' : Graph} : g.resetAll handles = (g', .ok ()) → AtHead g handles handles ⟨g', [], 1⟩ []
  | pass {root : Handle} {roots left : List Handle} {g' : Graph} {rank : Nat} {c : Color} :
      AtHead g handles (root :: roots) ⟨g', [], rank⟩ left → g'.colorOf root = some c → c ≠ .white →
      AtHead g handles roots ⟨g', [], rank⟩ left
  | enter {root : Handle} {roots left : List Handle} {g' : Graph} {rank : Nat} :
      AtHead g handles (root :: roots) ⟨g', [], rank⟩ left → g'.colorOf root = some .white →
      AtHead g handles roots ⟨g'.update root Vertex.enter, [⟨root, 0⟩], rank⟩ left
  | turn {roots left : List Handle} {g' : Graph} {top : Frame} {below : List Frame} {rank : Nat} {s : Search} :
      AtHead g handles roots ⟨g', top :: below, rank⟩ left → step g' rank top below = .ok s →
      AtHead g handles roots s (left ++ leaving g' top)

/-- What a sort does from the head of its loop: it goes on round the loop, and then searches from the roots that are
still to come. -/
def goOn (s : Search) (roots : List Handle) : Search × Except Failure Unit :=
  match run s with
  | (s', .error e) => (s', .error e)
  | (s', .ok ()) => visitAll s'.graph s'.rank roots

theorem goOn_nil (g : Graph) (rank : Nat) (roots : List Handle) : goOn ⟨g, [], rank⟩ roots = visitAll g rank roots := by
  rw [goOn, Recursion.run_of_empty rfl]

theorem goOn_of_error {g : Graph} {rank : Nat} {top : Frame} {below : List Frame} {e : Failure}
    (h : step g rank top below = .error e) (roots : List Handle) :
    goOn ⟨g, top :: below, rank⟩ roots = (⟨g, top :: below, rank⟩, .error e) := by
  rw [goOn, Recursion.run_of_error h]

/-- The search is at its end: nothing is entered any more, or the next step fails. -/
def Halts : Search × Except Failure Unit → Prop
  | (s, .ok ()) => s.stack = []
  | (s, .error e) => ∃ top below, s.stack = top :: below ∧ step s.graph s.rank top below = .error e

theorem halts_run (s : Search) : Halts (run s) := by
  fun_induction run s with
  | case1 s hs => exact hs
  | case2 s top below hs e hstep => exact ⟨top, below, hs, hstep⟩
  | case3 s top below hs s' hstep ih => exact ih

namespace AtHead

variable {g : Graph} {handles roots left : List Handle}

theorem run {s : Search} (h : AtHead g handles roots s left) :
    ∃ left', AtHead g handles roots (Search.run s).1 left' := by
  fun_induction Search.run s generalizing left with
  | case1 => exact ⟨left, h⟩
  | case2 => exact ⟨left, h⟩
  | case3 s top below hs s' hstep ih =>
    obtain ⟨g', stack, rank⟩ := s
    obtain rfl : stack = top :: below := hs
    exact ih (h.turn hstep)

theorem visit {g' : Graph} {rank : Nat} {root : Handle} (h : AtHead g handles (root :: roots) ⟨g', [], rank⟩ left)
    (hlt : root < g'.size) : ∃ left', AtHead g handles roots (Search.visit g' rank root).1 left' ∧
      Halts (Search.visit g' rank root) := by
  obtain ⟨v, hv⟩ := exists_vertex hlt
  unfold Search.visit
  simp only [get_eq_ok_iff.mpr hv]
  split
  · rename_i hwhite
    obtain ⟨left', hend⟩ := (h.enter (by rw [colorOf_eq hv, hwhite])).run
    exact ⟨left', hend, halts_run _⟩
  · rename_i hnot
    exact ⟨left, h.pass (colorOf_eq hv) hnot, rfl⟩

/-- Searches from several roots end at the head of the loop, or in a step from there. -/
theorem visitAll : ∀ {roots left : List Handle} {g' : Graph} {rank : Nat},
    AtHead g handles roots ⟨g', [], rank⟩ left → (∀ h ∈ roots, h < g'.size) →
      ∃ rest left', AtHead g handles rest (Search.visitAll g' rank roots).1 left' ∧
        Halts (Search.visitAll g' rank roots) ∧ ((Search.visitAll g' rank roots).2 = .ok () → rest = [])
  | [], left, g', rank, h, _ => ⟨[], left, h, rfl, fun _ => rfl⟩
  | root :: roots, left, g', rank, h, hlt => by
    obtain ⟨hroot, hlt⟩ := List.forall_mem_cons.mp hlt
    obtain ⟨left', hend, hhalts⟩ := h.visit hroot
    have hsize : (Search.visit g' rank root).1.graph.size = g'.size :=
      ((confined_all _).visit fun _ => trivial).2.recolored.size_eq
    unfold Search.visitAll
    generalize Search.visit g' rank root = result at hend hhalts hsize ⊢
    obtain ⟨⟨g'', stack, rank'⟩, outcome⟩ := result
    cases outcome with
    | error e => exact ⟨roots, left', hend, hhalts, fun hok => by cases hok⟩
    | ok u =>
      obtain rfl : stack = [] := hhalts
      exact hend.visitAll (hsize ▸ hlt)

/-- From every state at the head the search goes on as the sort does. -/
theorem goOn_eq {g₀ : Graph} (hreset : g.resetAll handles = (g₀, .ok ())) {s : Search}
    (h : AtHead g handles roots s left) : goOn s roots = Search.visitAll g₀ 1 handles := by
  induction h with
  | start h =>
    obtain ⟨rfl, -⟩ := Prod.mk.inj (hreset.symm.trans h)
    exact goOn_nil _ _ _
  | @pass root roots left g' rank c _ hcolor hc ih =>
    obtain ⟨v, hv, rfl⟩ := Option.map_eq_some_iff.mp hcolor
    rw [← ih, goOn_nil, goOn_nil, Search.visitAll, Search.visit, get_eq_ok_iff.mpr hv]
    simp only [if_neg hc]
  | @enter root roots left g' rank _ hwhite ih =>
    obtain ⟨v, hv, hc⟩ := Option.map_eq_some_iff.mp hwhite
    rw [← ih, goOn_nil, Search.visitAll, Search.visit, get_eq_ok_iff.mpr hv]
    simp only [if_pos hc]
    rfl
  | turn _ hstep ih => rw [← ih, goOn, goOn, Recursion.run_of_step hstep]

/-- The search is midway whenever it comes to the head of the loop. -/
theorem midway {g₀ : Graph} (hreset : g.resetAll handles = (g₀, .ok ()))
    (hstart : Midway g₀ handles ⟨g₀, [], 1⟩ []) (hclosed : g₀.ClosedFrom handles) {s : Search}
    (h : AtHead g handles roots s left) : roots ⊆ handles ∧ Midway g₀ handles s left := by
  induction h with
  | start h =>
    obtain ⟨rfl, -⟩ := Prod.mk.inj (hreset.symm.trans h)
    exact ⟨List.Subset.refl _, hstart⟩
  | pass _ _ _ ih => exact ⟨(List.cons_subset.mp ih.1).2, ih.2⟩
  | enter _ hwhite ih =>
    obtain ⟨hroot, hroots⟩ := List.cons_subset.mp ih.1
    exact ⟨hroots, ih.2.enter hwhite rfl .bottom ⟨_, hroot, .refl⟩⟩
  | turn _ hstep ih =>
    obtain ⟨hroots, hmidway⟩ := ih
    rcases hmidway.step hclosed with ⟨s, hok, hnext, -⟩ | ⟨e, herror, -⟩
    · obtain rfl := Except.ok.inj (hok.symm.trans hstep)
      rw [leaving_recolored hmidway.recolored]
      exact ⟨hroots, hnext⟩
    · cases herror.symm.trans hstep

end AtHead

/-! ## The invariant of the loop -/

/-- What holds at the head of the loop in a search of `g` from `handles` that has left the vertices `left`. -/
structure LoopInvariant (g : Graph) (handles : List Handle) (s : Search) (left : List Handle) : Prop where
  /-- The grey vertices are those on the stack. -/
  grey : ∀ h, s.graph.colorOf h = some .grey ↔ h ∈ s.stack.map Frame.vertex
  once : (s.stack.map Frame.vertex).Nodup
  /-- Each frame but the innermost has the vertex inside it at the edge just before its mark. -/
  entered : s.stack.IsChain fun inner outer =>
    0 < outer.followed ∧ (g.relatedOf outer.vertex)[outer.followed - 1]? = some inner.vertex
  /-- The other edges before its mark end at black vertices, -/
  followed : ∀ f ∈ s.stack.tail, ∀ t ∈ (g.relatedOf f.vertex).take (f.followed - 1),
    s.graph.colorOf t = some .black
  /-- and so do all edges before the mark of the innermost. -/
  innermost : ∀ f ∈ s.stack.head?, ∀ t ∈ (g.relatedOf f.vertex).take f.followed, s.graph.colorOf t = some .black
  /-- What has been left is black and depends on black vertices only. -/
  black : ∀ h ∈ left, s.graph.colorOf h = some .black ∧ ∀ t, g.Edge h t → s.graph.colorOf t = some .black
  rank : s.rank = left.length + 1
  /-- It has the ranks below the next one, from 1 on, in the order of leaving. -/
  ranks : left.map s.graph.rankOf = (List.range' 1 (s.rank - 1)).map Nat.cast
  /-- No other vertex has been given a rank. -/
  unranked : ∀ h ∉ left, s.graph.rankOf h = if h ∈ handles then 0 else g.rankOf h

/-- How a sort of `g` may end at the head of the loop: nothing is entered any more and no root is still to come; or
the end of the path of entered vertices, which are still the grey ones, is a circle of edges and is reported by its
labels. -/
inductive EndsAt (g : Graph) (roots : List Handle) (s : Search) : Except Failure Unit → Prop
  | done : roots = [] → s.stack = [] → EndsAt g roots s (.ok ())
  | circular {h : Handle} {rest : List Handle} {labels : List String} :
      (∀ i, s.graph.colorOf i = some .grey ↔ i ∈ s.stack.map Frame.vertex) →
      h :: rest <:+ (s.stack.map Frame.vertex).reverse → g.Circle h rest →
      g.labels (h :: (rest ++ [h])) = .ok labels → EndsAt g roots s (.error (.cyclic (.acrossLines labels)))

section Reset

-- the search began after the given vertices had been reset
variable {g g₀ : Graph} {handles roots left : List Handle} {s : Search} (hsame : g.Recolored g₀)

/-- The vertices that have been left are ranked in the order of leaving. -/
theorem Midway.map_rankOf (h : Midway g₀ handles s left) :
    left.map s.graph.rankOf = (List.range' 1 (s.rank - 1)).map Nat.cast := by
  refine List.ext_getElem (by simp [h.rank]) fun i hi _ => ?_
  have hlt : i < left.length := by simpa using hi
  rw [List.getElem_map, h.ranks, if_pos (List.getElem_mem hlt), h.once.idxOf_getElem i hlt, List.getElem_map,
    List.getElem_range']
  omega

include hsame in
theorem Midway.loopInvariant (h : Midway g₀ handles s left)
    (hranks : ∀ i, g₀.rankOf i = if i ∈ handles then 0 else g.rankOf i) : LoopInvariant g handles s left := by
  have hframes : Frames g.relatedOf (s.graph.colorOf · = some .black) s.stack :=
    funext hsame.relatedOf ▸ h.frames
  constructor
  case grey => exact h.grey
  case once => exact h.entered
  case entered =>
    cases hstack : s.stack with
    | nil => exact .nil
    | cons top below =>
      rw [hstack] at hframes
      exact hframes.2.entered rfl
  case followed =>
    cases hstack : s.stack with
    | nil => exact fun _ hf => absurd hf List.not_mem_nil
    | cons top below =>
      rw [hstack] at hframes
      exact hframes.2.followed
  case innermost =>
    intro f hf
    obtain ⟨below, hstack⟩ := List.head?_eq_some_iff.mp hf
    rw [hstack] at hframes
    exact hframes.1
  case black =>
    intro i hi
    refine ⟨(h.black i).mpr (.inl hi), fun t ht => (h.black t).mpr ?_⟩
    -- what it depends on was black before, or has been left earlier
    obtain ⟨k, hk⟩ := List.mem_iff_getElem?.mp hi
    exact (h.ordered k i hk t (hsame.edge_eq ▸ ht)).imp List.mem_of_mem_take id
  case rank => exact h.rank
  case ranks => exact h.map_rankOf
  case unranked =>
    intro i hi
    rw [h.ranks, if_neg hi, hranks]

include hsame in
/-- A step from the head of the loop fails with a circle only. -/
theorem Midway.endsAt {g' : Graph} {top : Frame} {below : List Frame} {rank : Nat} {e : Failure}
    (h : Midway g₀ handles ⟨g', top :: below, rank⟩ left) (hclosed : g₀.ClosedFrom handles)
    (hstep : Search.step g' rank top below = .error e) : EndsAt g roots ⟨g', top :: below, rank⟩ (.error e) := by
  rcases h.step hclosed with ⟨s', hok, -⟩ | ⟨e', herror, hcloses⟩
  · cases hok.symm.trans hstep
  · obtain rfl := Except.error.inj (herror.symm.trans hstep)
    obtain ⟨i, rest, labels, rfl, hlabels, hcircle, hsuffix⟩ := hcloses.path h
    exact .circular h.grey hsuffix ⟨hcircle.nodup, hsame.edge_eq ▸ hcircle.chain⟩
      ((hsame.trans h.recolored).labels_eq_ok_iff.mp hlabels)

end Reset

/-- If all edges lead to vertices, so do those that can be followed. -/
theorem closedFrom_of_related {g : Graph} (h : ∀ v ∈ g.vertices, ∀ t ∈ v.related, t < g.size)
    (roots : List Handle) : g.ClosedFrom roots := by
  intro _ _ a b _ hab
  obtain ⟨v, hv⟩ := exists_vertex (Recursion.lt_size_of_edge hab)
  rw [Edge, relatedOf_eq hv] at hab
  exact h v (Array.mem_of_getElem? hv) b hab

/-- **The invariant of the loop** holds whenever the search comes to the head of it. A step from there that fails ends
the sort, with a circle of entered vertices; and every sort ends at the head of the loop, in this way or with nothing
left to do. Edges must lead to vertices, and no vertex may be grey but the given ones. -/
theorem loop_invariant {g : Graph} {handles : List Handle}
    (hclosed : ∀ v ∈ g.vertices, ∀ t ∈ v.related, t < g.size) (hlt : ∀ h ∈ handles, h < g.size)
    (hgrey : ∀ h < g.size, g.colorOf h = some .grey → h ∈ handles) :
    (∀ roots s left, AtHead g handles roots s left → LoopInvariant g handles s left) ∧
      (∀ roots g' top below rank left e, AtHead g handles roots ⟨g', top :: below, rank⟩ left →
        step g' rank top below = .error e →
        g.sort handles = (g', .error e) ∧ EndsAt g roots ⟨g', top :: below, rank⟩ (.error e)) ∧
      ∃ roots s left, AtHead g handles roots s left ∧ s.graph = (g.sort handles).1 ∧
        EndsAt g roots s (g.sort handles).2 := by
  have hgrey' : ∀ h, g.colorOf h = some .grey → h ∈ handles := fun h hh =>
    hgrey h (lt_size_of_colorOf hh) hh
  obtain ⟨g₀, hreset, hsame, hvertices, hclosed₀, hstart⟩ :=
    sort_start hlt (closedFrom_of_related hclosed handles) hgrey'
  have hmidway : ∀ {roots s left}, AtHead g handles roots s left → Midway g₀ handles s left := fun h =>
    (h.midway hreset hstart hclosed₀).2
  have hsort := sort_of_reset hreset
  refine ⟨fun _ _ _ h => (hmidway h).loopInvariant hsame (rankOf_resetAll hvertices), ?_, ?_⟩
  · -- the sort does what is left to do, and that is to fail
    intro roots g' top below rank left e h hstep
    rw [hsort, ← h.goOn_eq hreset, goOn_of_error hstep]
    exact ⟨rfl, (hmidway h).endsAt hsame hclosed₀ hstep⟩
  · obtain ⟨roots, left, hend, hhalts, hroots⟩ := (AtHead.start hreset).visitAll (hsame.size_eq ▸ hlt)
    rw [hsort]
    generalize Search.visitAll g₀ 1 handles = result at hend hhalts hroots ⊢
    obtain ⟨⟨g', stack, rank⟩, outcome⟩ := result
    refine ⟨roots, _, left, hend, rfl, ?_⟩
    cases outcome with
    | ok u => exact .done (hroots rfl) hhalts
    | error e =>
      obtain ⟨top, below, rfl, hstep⟩ := hhalts
      exact (hmidway hend).endsAt hsame hclosed₀ hstep

open Recursion (tangle)

/-- The search of `tangle` when it has left `b`, and is about to follow the second edge from `a` to it. -/
def midTangle : Search where
  graph := { vertices := #[
    { handle := 0, name := "a", related := [1, 1, 2], color := .grey },
    { handle := 1, name := "b", related := [2], color := .black, exitRank := 1 },
    { handle := 2, name := "c", color := .black, exitRank := 5 },
    { handle := 3, name := "d", related := [0, 3], color := .grey }] }
  stack := [⟨0, 1⟩, ⟨3, 1⟩]
  rank := 2

/-- The same search when it is about to follow the edge from `d` to itself. -/
def endTangle : Search where
  graph := { vertices := #[
    { handle := 0, name := "a", related := [1, 1, 2], color := .black, exitRank := 2 },
    { handle := 1, name := "b", related := [2], color := .black, exitRank := 1 },
    { handle := 2, name := "c", color := .black, exitRank := 5 },
    { handle := 3, name := "d", related := [0, 3], color := .grey }] }
  stack := [⟨3, 1⟩]
  rank := 3

theorem atHead_midTangle : AtHead tangle [3, 1, 3] [1, 3] midTangle [1] := by
  have hstart : AtHead tangle [3, 1, 3] [3, 1, 3] _ [] := .start rfl
  have hd := hstart.enter (by decide)
  have hda := hd.turn rfl
  have hdab := hda.turn rfl
  have hskip := hdab.turn rfl
  exact hskip.turn rfl

theorem atHead_endTangle : AtHead tangle [3, 1, 3] [1, 3] endTangle [1, 0] := by
  have hskip := atHead_midTangle.turn rfl
  have hskip' := hskip.turn rfl
  exact hskip'.turn rfl

/-- When `b` has been left, the mark of `d` is behind its edge to `a`; and the edge from `d` to itself ends the sort. -/
theorem loop_tangle :
    ((∀ v ∈ tangle.vertices, ∀ t ∈ v.related, t < tangle.size) ∧ (∀ h ∈ [3, 1, 3], h < tangle.size) ∧
      ∀ h < tangle.size, tangle.colorOf h = some .grey → h ∈ [3, 1, 3]) ∧
    AtHead tangle [3, 1, 3] [1, 3] midTangle [1] ∧ LoopInvariant tangle [3, 1, 3] midTangle [1] ∧
    AtHead tangle [3, 1, 3] [1, 3] endTangle [1, 0] ∧
    tangle.sort [3, 1, 3] = (endTangle.graph, .error (.cyclic (.acrossLines ["d", "d"]))) ∧
    EndsAt tangle [1, 3] endTangle (.error (.cyclic (.acrossLines ["d", "d"]))) := by
  have hclosed : ∀ v ∈ tangle.vertices, ∀ t ∈ v.related, t < tangle.size := by decide
  have hlt : ∀ h ∈ [3, 1, 3], h < tangle.size := by decide
  have hgrey : ∀ h < tangle.size, tangle.colorOf h = some .grey → h ∈ [3, 1, 3] := by decide
  obtain ⟨hinvariant, hfails, -⟩ := loop_invariant hclosed hlt hgrey
  obtain ⟨hsort, hends⟩ := hfails _ _ _ _ _ _ _ atHead_endTangle (by cbv)
  exact ⟨⟨hclosed, hlt, hgrey⟩, atHead_midTangle, hinvariant _ _ _ atHead_midTangle, atHead_endTangle,
    hsort, hends⟩

end Search

end EvalOrder
