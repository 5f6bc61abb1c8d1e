import EvalOrder.Proofs.Linking
import EvalOrder.Proofs.Locality

/-!
# Sorting some of the vertices

Sorting may be asked for some vertices only, of a graph in which earlier sorts have left colours and ranks. The given
vertices are made white, and the search enters them and the white vertices that it comes to (`Searched`). A vertex
that was black before, and is not given, counts as done: the search does not look behind it, and it keeps its rank,
which was counted from one in another sort. So ranks can be compared between searched vertices only.

A sort that failed leaves vertices grey, which are not on the stack of a later search. Unless they are given, and so
made white again, they are `Stale`, and what becomes of a search that comes to one is left open: the results are about
searches that come to none, and about the outcomes of any search that are a circle or a success.

Results:
* `Arises.inRange`: in every graph that operations lead to, edges end at vertices.
* `alike_settled`: until a search comes to vertices grey from before, these may be taken for black ones.
* `sorted_of_comes`: what a search comes to that finds nothing grey.
* `sort_cases`: a sort reports a circle or succeeds, as `Sorted` says, unless it comes to a stale vertex.
* **`sort_selection`**: what sorting some vertices comes to, in every such graph.
* `sort_stops_at_black`: a search does not look behind a vertex that is black from before.
-/

namespace EvalOrder

namespace Graph

/-! ## The graphs that arise -/

/-- The graphs that operations lead to from the empty one, each with handles of vertices that are there. A sort counts
however it ends. -/
inductive Arises : Graph → Prop
  | empty : Arises {}
  | register {g : Graph} (name : String) : Arises g → Arises (g.register name).2
  | addRelated {g g' : Graph} {source target : Handle} : Arises g → target < g.size →
      g.addRelated source target = .ok g' → Arises g'
  | addFormula {g : Graph} (label : String) {declared : List Handle} {calls : List (List Handle)} : Arises g →
      (∀ d ∈ declared, d < g.size) → (∀ c ∈ calls.flatten, c < g.size) →
      Arises (g.addFormula label declared calls).2
  | link {g : Graph} : Arises g → Arises g.link
  | sort {g : Graph} {handles : List Handle} : Arises g → (∀ h ∈ handles, h < g.size) →
      Arises (g.sort handles).1

theorem Arises.addEdges {g : Graph} (hg : g.Arises) {edges : List (Handle × Handle)}
    (h : ∀ e ∈ edges, e.1 < g.size ∧ e.2 < g.size) : (g.addEdges edges).Arises := by
  induction edges generalizing g with
  | nil => exact hg
  | cons e edges ih =>
    obtain ⟨⟨ha, hb⟩, hrest⟩ := List.forall_mem_cons.mp h
    exact ih (hg.addRelated hb (addRelated_eq ha e.2)) (by simpa using hrest)

/-- Edges end at vertices, and the formulas are vertices. -/
structure InRange (g : Graph) : Prop where
  edges : ∀ a b, g.Edge a b → b < g.size
  formulas : ∀ f ∈ g.formulas, f < g.size

namespace InRange

variable {g g' : Graph}

theorem addEdges (hg : g.InRange) {edges : List (Handle × Handle)} (h : ∀ e ∈ edges, e.2 < g.size) :
    (g.addEdges edges).InRange := by
  obtain ⟨hsize, -, hformulas⟩ := addEdges_keeps edges g
  refine ⟨fun a b hab => ?_, fun f hf => hsize ▸ hg.formulas f (hformulas ▸ hf)⟩
  have ha : a < g.size := hsize ▸ Recursion.lt_size_of_edge hab
  rw [Edge, relatedOf_addEdges ha, List.mem_append, mem_targets] at hab
  rw [hsize]
  exact hab.elim (hg.edges a b) fun he => h _ he

/-- One more vertex, from which no edge leads. -/
theorem push (hg : g.InRange) {v : Vertex} (hv : v.related = []) (hvertices : g'.vertices = g.vertices.push v)
    (hformulas : ∀ f ∈ g'.formulas, f ∈ g.formulas ∨ f = g.size) : g'.InRange := by
  have hsize : g'.size = g.size + 1 := by rw [size, hvertices, Array.size_push, size]
  refine ⟨fun a b hab => ?_, fun f hf => ?_⟩
  · rw [Edge, Graph.relatedOf, hvertices, Array.getElem?_push] at hab
    split at hab
    · rw [Option.map_some, Option.getD_some, hv] at hab
      exact absurd hab List.not_mem_nil
    · exact hsize ▸ Nat.lt_succ_of_lt (hg.edges a b hab)
  · rw [hsize]
    rcases hformulas f hf with hf | rfl
    · exact Nat.lt_succ_of_lt (hg.formulas f hf)
    · exact Nat.lt_succ_self _

theorem register (hg : g.InRange) (name : String) : (g.register name).2.InRange := by
  unfold Graph.register
  cases g.find? name with
  | some h => exact hg
  | none => exact hg.push (v := { handle := g.size, name }) rfl rfl fun f hf => .inl hf

theorem addRelated (hg : g.InRange) {source target : Handle} (ht : target < g.size)
    (h : g.addRelated source target = .ok g') : g'.InRange := by
  unfold Graph.addRelated modify at h
  cases hv : g.get source with
  | error e =>
    rw [hv] at h
    cases h
  | ok v =>
    rw [hv] at h
    obtain rfl := Except.ok.inj h
    have hedge : ∀ e ∈ [(source, target)], e.2 < g.size := by simpa using ht
    exact hg.addEdges hedge

theorem addFormula (hg : g.InRange) (label : String) (declared : List Handle) (calls : List (List Handle)) :
    (g.addFormula label declared calls).2.InRange := by
  rw [addFormula_eq]
  exact hg.push (v := g.formulaVertex label declared calls) rfl rfl fun f hf => by simpa using hf

theorem link (hg : g.InRange) : g.link.InRange := by
  refine hg.addEdges fun e he => ?_
  obtain ⟨-, hb, -⟩ := mem_linkEdges.mp he
  exact hg.formulas _ hb

theorem recolored (hg : g.InRange) (h : g.Recolored g') : g'.InRange := by
  refine ⟨fun a b hab => ?_, fun f hf => ?_⟩
  · rw [h.edge_eq] at hab
    exact h.size_eq ▸ hg.edges a b hab
  · exact h.size_eq ▸ hg.formulas f (h.formulas ▸ hf)

end InRange

/-- In every graph that arises edges end at vertices. -/
theorem Arises.inRange {g : Graph} (h : g.Arises) : g.InRange := by
  induction h with
  | empty => exact ⟨fun _ _ hab => absurd hab List.not_mem_nil, fun _ hf => absurd hf List.not_mem_nil⟩
  | register name _ ih => exact ih.register name
  | addRelated _ ht h ih => exact ih.addRelated ht h
  | addFormula label _ _ _ ih => exact ih.addFormula label _ _
  | link _ ih => exact ih.link
  | sort _ _ ih => exact ih.recolored (recolored_sort _ _)

/-! ## Grey vertices -/

/-- The graph with its grey vertices made black. -/
def settled (g : Graph) : Graph :=
  { g with vertices := g.vertices.map fun v => if v.color = .grey then { v with color := .black } else v }

theorem vertices_settled (g : Graph) (h : Handle) : g.settled.vertices[h]? =
    g.vertices[h]?.map fun v => if v.color = .grey then { v with color := .black } else v := by
  simp [settled]

theorem recolored_settled (g : Graph) : g.Recolored g.settled := by
  refine ⟨fun h => ?_, rfl, rfl⟩
  rw [vertices_settled, Option.map_map]
  refine congrArg (Option.map · _) (funext fun v => ?_)
  simp only [Function.comp_apply]
  split <;> rfl

theorem vertices_settled_of_ne {g : Graph} {h : Handle} (hne : g.colorOf h ≠ some .grey) :
    g.settled.vertices[h]? = g.vertices[h]? := by
  rw [vertices_settled]
  unfold colorOf at hne
  cases hv : g.vertices[h]? with
  | none => rfl
  | some v =>
    rw [hv] at hne
    simp [show v.color ≠ .grey by simpa using hne]

theorem colorOf_settled (g : Graph) (h : Handle) : g.settled.colorOf h ≠ some .grey := by
  unfold colorOf
  rw [vertices_settled, Option.map_map]
  intro hgrey
  obtain ⟨v, -, hv⟩ := Option.map_eq_some_iff.mp hgrey
  simp only [Function.comp_apply] at hv
  split at hv
  · cases hv
  · contradiction

/-! ## What sorting some vertices comes to -/

/-- The vertices that a search from `handles` enters: these, and the white ones that it comes to. -/
inductive Searched (g : Graph) (handles : List Handle) : Handle → Prop
  | given {h : Handle} : h ∈ handles → Searched g handles h
  | white {a b : Handle} : Searched g handles a → g.Edge a b → g.colorOf b = some .white → Searched g handles b

/-- A vertex that is grey from before: it is not made white again. -/
def Stale (g : Graph) (handles : List Handle) (h : Handle) : Prop := h ∉ handles ∧ g.colorOf h = some .grey

/-- What sorting some vertices of `g` comes to. They depend on a circle, which is reported by its labels; or all that is
searched is black, with all that it depends on, and ranks above the searched vertices that it depends on. -/
inductive Sorted (g : Graph) (handles : List Handle) : Graph × Except Failure Unit → Prop
  | circular {g' : Graph} {h : Handle} {rest : List Handle} {labels : List String} : g.Circle h rest →
      (∀ i ∈ h :: rest, ∃ r ∈ handles, Relation.ReflTransGen g.Edge r i) →
      g.labels (h :: (rest ++ [h])) = .ok labels → Sorted g handles (g', .error (.cyclic (.acrossLines labels)))
  | done {g' : Graph} : (∀ a, g.Searched handles a → g'.colorOf a = some .black) →
      (∀ a b, g.Searched handles a → g.Edge a b → g'.colorOf b = some .black) →
      (∀ a b, g.Searched handles a → g.Edge a b → g.Searched handles b → g'.rankOf b < g'.rankOf a) →
      Sorted g handles (g', .ok ())

variable {g g₀ : Graph} {handles : List Handle}

section Reset

-- the given vertices have been made white
variable (hsame : g.Recolored g₀)
  (hcolor : ∀ h, g₀.colorOf h = if h ∈ handles then some .white else g.colorOf h)

include hcolor in
theorem Searched.white_of_reset {a : Handle} (ha : g.Searched handles a) : g₀.colorOf a = some .white := by
  rw [hcolor]
  split
  · rfl
  · rename_i hnot
    cases ha with
    | given hmem => exact absurd hmem hnot
    | white _ _ hw => exact hw

include hsame hcolor in
theorem confined_searched : Search.Confined (g.Searched handles) ⟨g₀, [], 1⟩ := by
  refine ⟨by simp, fun a b ha hab hb => ?_⟩
  by_cases hmem : b ∈ handles
  · exact .given hmem
  · rw [hcolor, if_neg hmem] at hb
    exact .white ha (hsame.edge_eq ▸ hab) hb

include hcolor in
theorem Searched.not_stale {a : Handle} (ha : g.Searched handles a) : ¬ g.Stale handles a := by
  rintro ⟨hnot, hgrey⟩
  have hwhite := ha.white_of_reset hcolor
  rw [hcolor, if_neg hnot, hgrey] at hwhite
  cases hwhite

include hcolor in
/-- Until the search comes to a stale vertex, it may be run on the settled graph. -/
theorem alike_settled :
    Search.Alike (g.Searched handles) (g.Stale handles) ⟨g₀, [], 1⟩ ⟨g₀.settled, [], 1⟩ := by
  refine ⟨⟨?_, by simp, by simp, ?_⟩, rfl, rfl, fun h hh hne => vertices_settled_of_ne ?_⟩
  · rintro h ⟨hnot, hgrey⟩
    rw [hcolor, if_neg hnot, hgrey]
  · intro a ha hblack
    rw [ha.white_of_reset hcolor] at hblack
    cases hblack
  · rcases hh with ha | ⟨a, ha, hab⟩
    · rw [ha.white_of_reset hcolor]
      simp
    · rw [hcolor]
      split
      · simp
      · rename_i hnot
        exact fun hgrey => hne ⟨hnot, hgrey⟩

end Reset

/-- Only colours and ranks of what is searched matter, and of what it depends on. -/
theorem Sorted.congr {g' g'' : Graph} {outcome : Except Failure Unit} (h : g.Sorted handles (g', outcome))
    (hsame : ∀ a, g.Searched handles a → g''.vertices[a]? = g'.vertices[a]?)
    (hnext : ∀ a b, g.Searched handles a → g''.colorOf a = some .black → g.Edge a b →
      g''.vertices[b]? = g'.vertices[b]?) : g.Sorted handles (g'', outcome) := by
  have hcolor : ∀ a, g.Searched handles a → g''.colorOf a = g'.colorOf a := by
    intro a ha
    rw [colorOf, hsame a ha, colorOf]
  have hrank : ∀ a, g.Searched handles a → g''.rankOf a = g'.rankOf a := by
    intro a ha
    rw [rankOf, hsame a ha, rankOf]
  cases h with
  | circular hcircle hreached hlabels => exact .circular hcircle hreached hlabels
  | done hblack hblack' hranks =>
    have hleft : ∀ a, g.Searched handles a → g''.colorOf a = some .black := by
      intro a ha
      rw [hcolor a ha, hblack a ha]
    refine .done hleft (fun a b ha hab => ?_) fun a b ha hab hb => ?_
    · rw [colorOf, hnext a b ha (hleft a ha) hab]
      exact hblack' a b ha hab
    · rw [hrank a ha, hrank b hb]
      exact hranks a b ha hab hb

/-- What a search comes to that begins with what it will enter white, and nothing grey. -/
theorem sorted_of_comes (hsame : g.Recolored g₀)
    (hwhite : ∀ a, g.Searched handles a → g₀.colorOf a = some .white) {s : Search}
    {outcome : Except Failure Unit} (h : Search.Comes g₀ handles [] handles (s, outcome)) :
    g.Sorted handles (s.graph, outcome) := by
  cases h with
  | circular hend hcloses =>
    obtain ⟨i, rest, labels, rfl, hlabels, hcircle, hreached⟩ := hcloses.circle hend
    rw [hsame.edge_eq] at hreached
    exact .circular ⟨hcircle.nodup, hsame.edge_eq ▸ hcircle.chain⟩ hreached
      ((hsame.trans hend.recolored).labels_eq_ok_iff.mp hlabels)
  | @done _ left hend _ _ hblack =>
    have hfresh : ∀ a, g.Searched handles a → g₀.colorOf a ≠ some .black := by
      intro a ha
      rw [hwhite a ha]
      simp
    -- what a vertex depends on that was left is black, and was left before if it is searched
    have hbefore : ∀ a ∈ left, ∀ b, g.Edge a b →
        b ∈ left.take (left.idxOf a) ∨ g₀.colorOf b = some .black := by
      intro a ha b hab
      have hlt := List.idxOf_lt_length_of_mem ha
      exact hend.ordered _ a (by rw [List.getElem?_eq_getElem hlt, List.getElem_idxOf]) b (hsame.edge_eq ▸ hab)
    have hleft : ∀ a, g.Searched handles a → a ∈ left := by
      intro a ha
      induction ha with
      | given hmem => exact ((hend.black _).mp (hblack _ hmem)).resolve_right (hfresh _ (.given hmem))
      | @white a b ha hab hb ih =>
        exact List.mem_of_mem_take ((hbefore a ih b hab).resolve_right (hfresh b (.white ha hab hb)))
    refine .done (fun a ha => (hend.black a).mpr (.inl (hleft a ha))) (fun a b ha hab => ?_) fun a b ha hab hb => ?_
    · exact (hend.black b).mpr ((hbefore a (hleft a ha) b hab).imp List.mem_of_mem_take id)
    · have hmem := (hbefore a (hleft a ha) b hab).resolve_right (hfresh b hb)
      have hlt : left.idxOf b < left.idxOf a := (List.mem_take_iff_idxOf_lt (hleft b hb)).mp hmem
      rw [hend.ranks, hend.ranks, if_pos (hleft a ha), if_pos (hleft b hb)]
      omega

/-- What the vertices that are searched depend on. -/
def ComesTo (g : Graph) (handles : List Handle) (b : Handle) : Prop := ∃ a, g.Searched handles a ∧ g.Edge a b

/-- A sort is what the search of the settled graph comes to, unless it comes to a stale vertex. -/
theorem sort_cases (hg : g.Arises) (hlt : ∀ h ∈ handles, h < g.size) : g.Sorted handles (g.sort handles) ∨
    (∃ b, g.ComesTo handles b ∧ g.Stale handles b) ∧ ∃ f, (g.sort handles).2 = .error (.fault f) := by
  obtain ⟨g₀, hreset, hsame, hvertices⟩ := resetAll_eq hlt
  have hcolor := colorOf_resetAll hvertices hlt
  have hconfined := confined_searched hsame hcolor
  have halike := alike_settled hcolor
  have hsettled : g.Recolored g₀.settled := hsame.trans (recolored_settled g₀)
  have hclosed : g₀.settled.ClosedFrom handles := by
    intro r _ a b _ hab
    rw [hsettled.edge_eq] at hab
    exact hsettled.size_eq ▸ hg.inRange.edges a b hab
  have hroots : ∀ h ∈ handles, h ∈ handles ∧ h < g₀.settled.size := fun h hh =>
    ⟨hh, hsettled.size_eq ▸ hlt h hh⟩
  have hcomes := (Search.midway_start (colorOf_settled g₀) handles).visitAll hclosed hroots
  have hsorted : g.Sorted handles ((Search.visitAll g₀.settled 1 handles).1.graph,
      (Search.visitAll g₀.settled 1 handles).2) := by
    refine sorted_of_comes hsettled (fun a ha => ?_) hcomes
    rw [colorOf, halike.seen a (.inl ha) (ha.not_stale hcolor)]
    exact ha.white_of_reset hcolor
  have hedges : (Search.visitAll g₀ 1 handles).1.graph.Edge = g.Edge :=
    (hsame.trans (hconfined.visitAll fun h hh _ => .given hh).2.recolored).edge_eq
  rw [sort_of_reset hreset]
  rcases halike.visitAll hconfined fun h hh => ⟨.given hh, fun hs => hs.1 hh⟩ with
    ⟨a, b, ha, hab, hb, hout⟩ | ⟨hout, hend⟩
  · exact .inr ⟨⟨b, ⟨a, ha, hsame.edge_eq ▸ hab⟩, hb⟩, _, hout⟩
  · -- the search of the graph itself has ended as that of the settled one
    rw [← hout]
    refine .inl (hsorted.congr (fun a ha => ?_) fun a b ha hblack hab => ?_)
    · exact (hend.seen a (.inl ha) (ha.not_stale hcolor)).symm
    · rw [← hedges] at hab
      exact (hend.seen b (.inr ⟨a, ha, hab⟩) (hend.left a ha hblack b hab)).symm

/-- Nothing that is not searched is touched. -/
theorem vertices_sort_of_not_searched (hlt : ∀ h ∈ handles, h < g.size) {h : Handle} (hh : ¬ g.Searched handles h) :
    (g.sort handles).1.vertices[h]? = g.vertices[h]? := by
  obtain ⟨g₀, hreset, hsame, hvertices⟩ := resetAll_eq hlt
  have hconfined := confined_searched hsame (colorOf_resetAll hvertices hlt)
  rw [sort_of_reset hreset, (hconfined.visitAll fun h hh _ => .given hh).2.apart h hh, hvertices,
    if_neg fun hmem => hh (.given hmem)]

/-- **What sorting some vertices comes to**, in every graph that arises. If the search comes to no stale vertex, then a
circle is reported or what is searched is sorted, and nothing else can happen; and whatever it comes to, a circle that
is reported is one, and a success is one. Nothing that is not searched is touched. -/
theorem sort_selection (hg : g.Arises) (hlt : ∀ h ∈ handles, h < g.size) :
    ((∀ b, g.ComesTo handles b → ¬ g.Stale handles b) → g.Sorted handles (g.sort handles)) ∧
      ((g.sort handles).2 = .ok () ∨ (∃ c, (g.sort handles).2 = .error (.cyclic c)) →
        g.Sorted handles (g.sort handles)) ∧
      ∀ h : Handle, ¬ g.Searched handles h → (g.sort handles).1.vertices[h]? = g.vertices[h]? := by
  refine ⟨fun hfresh => ?_, fun hout => ?_, fun h => vertices_sort_of_not_searched hlt⟩
  · exact (sort_cases hg hlt).resolve_right fun ⟨⟨b, hb, hstale⟩, _⟩ => hfresh b hb hstale
  · refine (sort_cases hg hlt).resolve_right fun ⟨_, f, hf⟩ => ?_
    rw [hf] at hout
    rcases hout with h | ⟨c, h⟩ <;> cases h

/-- A graph after two sorts, in which `a` depends on `b`, `b` on `d`, and `c` on itself. Sorting `b` has ranked `d` and
`b`; then sorting `c` and `d` has made `d` white again, and has reported the circle of `c`. -/
def leftOver : Graph where
  vertices := #[{ handle := 0, name := "a", related := [1] },
    { handle := 1, name := "b", related := [3], color := .black, exitRank := 2 },
    { handle := 2, name := "c", related := [2], color := .grey },
    { handle := 3, name := "d" }]
  names := [("a", 0), ("b", 1), ("c", 2), ("d", 3)]

theorem arises_leftOver : leftOver.Arises := by
  let named : Graph := (((({} : Graph).register "a").2.register "b").2.register "c").2.register "d" |>.2
  let related : Graph := named.addEdges [(0, 1), (1, 3), (2, 2)]
  have hnamed : named.Arises := .register "d" (.register "c" (.register "b" (.register "a" .empty)))
  have hrelated : related.Arises := hnamed.addEdges (by decide)
  have hsort : (related.sort [1]).1 = { leftOver with vertices := #[
      { handle := 0, name := "a", related := [1] },
      { handle := 1, name := "b", related := [3], color := .black, exitRank := 2 },
      { handle := 2, name := "c", related := [2] },
      { handle := 3, name := "d", color := .black, exitRank := 1 }] } := by cbv
  have hsort' : ((related.sort [1]).1.sort [2, 3]).1 = leftOver := by
    rw [hsort]
    cbv
  exact hsort' ▸ .sort (.sort hrelated (by decide)) (by rw [hsort]; decide)

/-- Only `a` is entered when it is sorted, and the search comes to the black `b` alone. -/
theorem searched_leftOver {a : Handle} (ha : leftOver.Searched [0] a) : a = 0 := by
  induction ha with
  | given hmem => exact List.mem_singleton.mp hmem
  | white _ hab hb ih =>
    subst ih
    obtain rfl := List.mem_singleton.mp hab
    exact absurd hb (by decide)

/-- The grey `c` is out of the way when `a` is sorted, which leaves `d` as it was. -/
theorem sort_leftOver : leftOver.Arises ∧ (∀ h ∈ [0], h < leftOver.size) ∧
    (∀ b, leftOver.ComesTo [0] b → ¬ leftOver.Stale [0] b) ∧ leftOver.Sorted [0] (leftOver.sort [0]) ∧
    (leftOver.sort [0]).1.vertices[3]? = leftOver.vertices[3]? := by
  have hlt : ∀ h ∈ [0], h < leftOver.size := by decide
  have hfresh : ∀ b, leftOver.ComesTo [0] b → ¬ leftOver.Stale [0] b := by
    rintro b ⟨a, ha, hab⟩ ⟨-, hgrey⟩
    obtain rfl := searched_leftOver ha
    obtain rfl := List.mem_singleton.mp hab
    exact absurd hgrey (by decide)
  obtain ⟨hsorted, -, hapart⟩ := sort_selection arises_leftOver hlt
  exact ⟨arises_leftOver, hlt, hfresh, hsorted hfresh, hapart 3 fun h => absurd (searched_leftOver h) (by decide)⟩

/-- So `b`, on which `a` depends, keeps a rank above the one that `a` gets, and `d`, on which `b` depends, stays
white. -/
theorem sort_stops_at_black : leftOver.Arises ∧ leftOver.Edge 0 1 ∧ leftOver.Edge 1 3 ∧
    (leftOver.sort [0]).2 = .ok () ∧ ¬ (leftOver.sort [0]).1.rankOf 1 < (leftOver.sort [0]).1.rankOf 0 ∧
    (leftOver.sort [0]).1.colorOf 3 ≠ some .black := by
  have hsort : leftOver.sort [0] = ({ leftOver with vertices := #[
      { handle := 0, name := "a", related := [1], color := .black, exitRank := 1 },
      { handle := 1, name := "b", related := [3], color := .black, exitRank := 2 },
      { handle := 2, name := "c", related := [2], color := .grey },
      { handle := 3, name := "d" }] }, .ok ()) := by cbv
  rw [hsort]
  exact ⟨arises_leftOver, List.mem_singleton_self 1, List.mem_singleton_self 3, rfl, by decide, by decide⟩

end Graph

end EvalOrder
