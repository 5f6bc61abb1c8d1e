import EvalOrder.Proofs.Recolor
import Mathlib.Data.List.Chain
import Mathlib.Data.List.Nodup
import Mathlib.Logic.Relation

/-!
# A search under way

What holds between any two steps of a search. The grey vertices are those on the stack; each of them was
entered from the one below it, by the last edge that one has followed (`Trail`), and all other edges that
were followed end at black vertices. The vertices that have been left are black and ranked in the order of
leaving, so each ranks above all that it depends on.

The invariant `Midway` compares the graph with the one that the search began with, and lists the vertices
left so far; the steps are stated for `Midway` one by one, and then together.

Results:
* `Midway.leave`, `Midway.skip`, `Midway.enter`: the three steps that a search goes on after.
* `closeCycle_eq`: the fourth step reports a circle of edges, the end of the path of entered vertices.
* `Trail.entered`, `Trail.followed`: the frames by the number of edges they have followed.
* **`Midway.step`**: a step keeps the invariant or reports a circle; nothing else can happen.
-/

namespace EvalOrder

namespace Graph

/-- The second vertex is among those that the first depends on. -/
def Edge (g : Graph) (a b : Handle) : Prop := b ∈ g.relatedOf a

theorem Recolored.edge_eq {g g' : Graph} (h : g.Recolored g') : g'.Edge = g.Edge := by
  funext a b
  rw [Edge, h.relatedOf, Edge]

/-- All edges that can be followed from `roots` end at vertices. -/
def ClosedFrom (g : Graph) (roots : List Handle) : Prop :=
  ∀ r ∈ roots, ∀ a b, Relation.ReflTransGen g.Edge r a → g.Edge a b → b < g.size

/-- The vertices follow each other by edges, from `h` back to it, and none comes twice. -/
structure Circle (g : Graph) (h : Handle) (rest : List Handle) : Prop where
  nodup : (h :: rest).Nodup
  chain : (h :: (rest ++ [h])).IsChain g.Edge

end Graph

namespace Search

open EvalOrder.Graph

/-! ## The stack -/

/-- The frames below `h`: each was entered from the next by the last edge it has followed, and the other
edges that it has followed end at black vertices. -/
inductive Trail (next : Handle → List Handle) (black : Handle → Prop) : Handle → List Frame → Prop
  | bottom {h : Handle} : Trail next black h []
  | frame {h v : Handle} {k : Nat} {below : List Frame} : (next v)[k]? = some h →
      (∀ t ∈ (next v).take k, black t) → Trail next black v below → Trail next black h (⟨v, k + 1⟩ :: below)

/-- The frames of a search: all edges that the innermost has followed end at black vertices. -/
def Frames (next : Handle → List Handle) (black : Handle → Prop) : List Frame → Prop
  | [] => True
  | top :: below => (∀ t ∈ (next top.vertex).take top.followed, black t) ∧ Trail next black top.vertex below

theorem Trail.mono {next : Handle → List Handle} {black black' : Handle → Prop} {h : Handle}
    {below : List Frame} (ht : Trail next black h below) (hb : ∀ t, black t → black' t) :
    Trail next black' h below := by
  induction ht with
  | bottom => exact .bottom
  | frame hedge hfollowed _ ih => exact .frame hedge (fun t htk => hb t (hfollowed t htk)) ih

/-- Each frame has the vertex of the next one inside it at the edge just before its mark. -/
theorem Trail.entered {next : Handle → List Handle} {black : Handle → Prop} {h : Handle} {below : List Frame}
    (ht : Trail next black h below) {top : Frame} (htop : top.vertex = h) :
    (top :: below).IsChain fun inner outer =>
      0 < outer.followed ∧ (next outer.vertex)[outer.followed - 1]? = some inner.vertex := by
  induction ht generalizing top with
  | bottom => exact .singleton _
  | frame hedge _ _ ih =>
    refine .cons_cons ⟨Nat.succ_pos _, ?_⟩ (ih rfl)
    rw [htop]
    exact hedge

/-- All other edges that the frames have followed end at black vertices. -/
theorem Trail.followed {next : Handle → List Handle} {black : Handle → Prop} {h : Handle} {below : List Frame}
    (ht : Trail next black h below) :
    ∀ f ∈ below, ∀ t ∈ (next f.vertex).take (f.followed - 1), black t := by
  induction ht with
  | bottom => exact fun _ hf => absurd hf List.not_mem_nil
  | frame _ hfollowed _ ih => exact List.forall_mem_cons.mpr ⟨hfollowed, ih⟩

/-- The vertices on the stack follow each other by edges, the innermost last. -/
theorem Trail.chain {g : Graph} {black : Handle → Prop} {h : Handle} {below : List Frame}
    (ht : Trail g.relatedOf black h below) :
    (h :: below.map Frame.vertex).IsChain (fun a b => g.Edge b a) := by
  induction ht with
  | bottom => exact .singleton _
  | frame hedge _ _ ih => exact .cons_cons (List.mem_of_getElem? hedge) ih

/-- After the innermost vertex has turned black the frames below are those of a search. -/
theorem Trail.frames {next : Handle → List Handle} {black : Handle → Prop} {h : Handle}
    {below : List Frame} (ht : Trail next black h below) (hb : black h) : Frames next black below := by
  cases ht with
  | bottom => trivial
  | frame hedge hfollowed hbelow =>
    refine ⟨?_, hbelow⟩
    intro t htk
    rw [List.take_add_one, hedge, Option.toList_some, List.mem_append, List.mem_singleton] at htk
    rcases htk with htk | rfl
    · exact hfollowed t htk
    · exact hb

/-- An edge from the last vertex of a chain to an earlier one closes a circle. -/
theorem circle_of_chain {g : Graph} {entered : List Handle} {last h : Handle}
    (hchain : entered.IsChain g.Edge) (hnodup : entered.Nodup) (hlast : entered.getLast? = some last)
    (hedge : g.Edge last h) (hh : h ∈ entered) :
    ∃ rest, entered.dropWhile (· ≠ h) = h :: rest ∧ g.Circle h rest ∧ h :: rest <:+ entered := by
  obtain ⟨pre, rest, rfl, hpre⟩ := List.eq_append_cons_of_mem hh
  have hne : ∀ i ∈ pre, i ≠ h := fun i hi he => hpre (he ▸ hi)
  have hdrop : (pre ++ h :: rest).dropWhile (· ≠ h) = h :: rest := by
    rw [List.dropWhile_append_of_pos (by simpa using hne), List.dropWhile_cons_of_neg (by simp)]
  refine ⟨rest, hdrop, ⟨(List.nodup_append.mp hnodup).2.1, ?_⟩, List.suffix_append _ _⟩
  rw [← List.cons_append]
  refine List.IsChain.append hchain.right_of_append (.singleton h) ?_
  intro x hx y hy
  rw [List.getLast?_append_cons, hx] at hlast
  obtain rfl := Option.some.inj hlast
  obtain rfl : h = y := by simpa using hy
  exact hedge

/-- The circle that an edge to a grey vertex closes is one of edges, and is reported by its labels. -/
theorem closeCycle_eq {g₀ g : Graph} {black : Handle → Prop} {top : Frame} {below : List Frame}
    {h : Handle} (hframes : Frames g₀.relatedOf black (top :: below))
    (hnodup : ((top :: below).map Frame.vertex).Nodup) (hlt : ∀ f ∈ top :: below, f.vertex < g.size)
    (hedge : g₀.Edge top.vertex h) (hh : h ∈ (top :: below).map Frame.vertex) :
    ∃ rest labels, closeCycle g (top :: below) h = .cyclic (.acrossLines labels) ∧
      g.labels (h :: (rest ++ [h])) = .ok labels ∧ g₀.Circle h rest ∧
      h :: rest <:+ ((top :: below).map Frame.vertex).reverse := by
  have hlast : ((top :: below).map Frame.vertex).reverse.getLast? = some top.vertex := by simp
  have hmem : h ∈ ((top :: below).map Frame.vertex).reverse := List.mem_reverse.mpr hh
  have hchain : ((top :: below).map Frame.vertex).reverse.IsChain g₀.Edge :=
    List.isChain_reverse.mpr hframes.2.chain
  obtain ⟨rest, hdrop, hcircle, hsuffix⟩ :=
    circle_of_chain hchain (List.nodup_reverse.mpr hnodup) hlast hedge hmem
  have hrange : ∀ i ∈ h :: (rest ++ [h]), i < g.size := by
    intro i hi
    have hi : i ∈ h :: rest := by
      rcases List.mem_append.mp (List.cons_append ▸ hi : i ∈ (h :: rest) ++ [h]) with hi | hi
      · exact hi
      · exact List.mem_singleton.mp hi ▸ List.mem_cons_self
    obtain ⟨f, hf, rfl⟩ := List.mem_map.mp (List.mem_reverse.mp (hsuffix.mem hi))
    exact hlt f hf
  obtain ⟨labels, hlabels⟩ := exists_labels hrange
  refine ⟨rest, labels, ?_, hlabels, hcircle, hsuffix⟩
  unfold closeCycle
  simp only
  rw [if_pos hmem, hdrop, List.cons_append, hlabels]

/-! ## The invariant -/

/-- What holds between two steps of a search from `roots` that began with the graph `g₀` and has left the
vertices `left`, in this order. -/
structure Midway (g₀ : Graph) (roots : List Handle) (s : Search) (left : List Handle) : Prop where
  recolored : g₀.Recolored s.graph
  /-- The grey vertices are those on the stack, none of them twice. -/
  grey : ∀ h, s.graph.colorOf h = some .grey ↔ h ∈ s.stack.map Frame.vertex
  entered : (s.stack.map Frame.vertex).Nodup
  frames : Frames g₀.relatedOf (s.graph.colorOf · = some .black) s.stack
  /-- The black vertices are those that have been left, and those that were black before. -/
  black : ∀ h, s.graph.colorOf h = some .black ↔ h ∈ left ∨ g₀.colorOf h = some .black
  once : left.Nodup
  rank : s.rank = left.length + 1
  ranks : ∀ h, s.graph.rankOf h = if h ∈ left then (left.idxOf h + 1 : Int) else g₀.rankOf h
  /-- What a vertex depends on was left before it. -/
  ordered : ∀ (i : Nat) (h : Handle), left[i]? = some h → ∀ t, g₀.Edge h t →
    t ∈ left.take i ∨ g₀.colorOf t = some .black
  reached : ∀ h, h ∈ left ∨ h ∈ s.stack.map Frame.vertex → ∃ r ∈ roots, Relation.ReflTransGen g₀.Edge r h

variable {g₀ g : Graph} {roots left : List Handle} {rank : Nat} {top : Frame} {below : List Frame}

/-- A search begins with no grey vertex. -/
theorem midway_start (hgrey : ∀ h, g₀.colorOf h ≠ some .grey) (roots : List Handle) :
    Midway g₀ roots ⟨g₀, [], 1⟩ [] where
  recolored := .refl g₀
  grey h := by simp [hgrey h]
  entered := .nil
  frames := trivial
  black h := by simp
  once := .nil
  rank := rfl
  ranks h := by simp
  ordered i h hi := by simp at hi
  reached h hh := by simp at hh

/-- What holds of each member of a list and of those before it, with one more at the end. -/
theorem forall_concat {P : Handle → List Handle → Prop} {l : List Handle} {x : Handle}
    (h : ∀ (i : Nat) (y : Handle), l[i]? = some y → P y (l.take i)) (hx : P x l) (i : Nat) (y : Handle)
    (hy : (l ++ [x])[i]? = some y) : P y ((l ++ [x]).take i) := by
  rcases Nat.lt_trichotomy i l.length with hi | rfl | hi
  · rw [List.getElem?_append_left hi] at hy
    rw [List.take_append_of_le_length (Nat.le_of_lt hi)]
    exact h i y hy
  · rw [List.getElem?_concat_length] at hy
    rw [List.take_left, ← Option.some.inj hy]
    exact hx
  · rw [List.getElem?_eq_none (by simp; omega)] at hy
    cases hy

/-- The vertex that is left now ranks above those that have been left. -/
theorem rankOf_leave_concat {v : Handle} {old : Handle → Int} (hlt : v < g.size) (hfresh : v ∉ left)
    (h : ∀ i, g.rankOf i = if i ∈ left then (left.idxOf i + 1 : Int) else old i) (i : Handle) :
    (g.update v (Vertex.leave (left.length + 1))).rankOf i =
      if i ∈ left ++ [v] then ((left ++ [v]).idxOf i + 1 : Int) else old i := by
  rw [rankOf_leave hlt]
  by_cases he : v = i
  · subst he
    rw [if_pos rfl, if_pos (by simp), List.idxOf_append_of_notMem hfresh]
    simp
  · by_cases hmem : i ∈ left
    · rw [if_neg he, if_pos (List.mem_append_left _ hmem), h, if_pos hmem, List.idxOf_append_of_mem hmem]
    · rw [if_neg he, if_neg (by simp [hmem, Ne.symm he]), h, if_neg hmem]

namespace Midway

/-- A vertex on the stack is there. -/
theorem lt_size {s : Search} (h : Midway g₀ roots s left) {f : Frame} (hf : f ∈ s.stack) :
    f.vertex < s.graph.size :=
  lt_size_of_colorOf ((h.grey f.vertex).mpr (List.mem_map_of_mem hf))

/-- The innermost vertex is left when it has no more edges. -/
theorem leave (h : Midway g₀ roots ⟨g, top :: below, rank⟩ left)
    (hnone : (g₀.relatedOf top.vertex)[top.followed]? = none) :
    Midway g₀ roots ⟨g.update top.vertex (Vertex.leave rank), below, rank + 1⟩ (left ++ [top.vertex]) := by
  have hlt : top.vertex < g.size := h.lt_size List.mem_cons_self
  have hcolor : ∀ i, (g.update top.vertex (Vertex.leave rank)).colorOf i =
      if top.vertex = i then some .black else g.colorOf i := colorOf_leave hlt rank
  have hgrey : g.colorOf top.vertex = some .grey := (h.grey _).mpr (by simp)
  obtain ⟨hnot, hbelow⟩ := List.nodup_cons.mp h.entered
  have hfresh : top.vertex ∉ left := by
    intro hmem
    have hblack := (h.black _).mpr (.inl hmem)
    rw [hgrey] at hblack
    cases hblack
  have hall : ∀ t, g₀.Edge top.vertex t → g.colorOf t = some .black := fun t ht =>
    h.frames.1 t (by rwa [List.take_of_length_le (List.getElem?_eq_none_iff.mp hnone)])
  have hmono : ∀ t, g.colorOf t = some .black →
      (g.update top.vertex (Vertex.leave rank)).colorOf t = some .black := by
    intro t ht
    rw [hcolor]
    split
    · rfl
    · exact ht
  constructor
  case recolored =>
    exact h.recolored.trans (recolored_update g _ (Vertex.reset_leave rank))
  case grey =>
    intro i
    rw [hcolor]
    have hi := h.grey i
    split
    · rename_i he
      subst he
      simpa using hnot
    · rename_i hne
      simpa [Ne.symm hne] using hi
  case entered =>
    exact hbelow
  case frames =>
    exact (h.frames.2.mono hmono).frames (by rw [hcolor, if_pos rfl])
  case black =>
    intro i
    rw [hcolor, List.mem_append, List.mem_singleton]
    have hi := h.black i
    split
    · rename_i he
      simp [he]
    · rename_i hne
      simpa [Ne.symm hne] using hi
  case once =>
    exact List.nodup_append.mpr ⟨h.once, by simp, fun a ha b hb hab => hfresh (by simp_all)⟩
  case rank =>
    have hrank : rank = left.length + 1 := h.rank
    simp [hrank]
  case ranks =>
    have hrank : rank = left.length + 1 := h.rank
    rw [hrank]
    exact rankOf_leave_concat hlt hfresh h.ranks
  case ordered =>
    exact forall_concat (P := fun i before => ∀ t, g₀.Edge i t → t ∈ before ∨ g₀.colorOf t = some .black)
      h.ordered fun t ht => (h.black t).mp (hall t ht)
  case reached =>
    intro i hi
    refine h.reached i ?_
    rw [List.mem_append, List.mem_singleton] at hi
    rcases hi with (hi | rfl) | hi
    · exact .inl hi
    · exact .inr List.mem_cons_self
    · exact .inr (List.mem_cons_of_mem _ hi)

/-- An edge to a black vertex is passed over. -/
theorem skip (h : Midway g₀ roots ⟨g, top :: below, rank⟩ left) {t : Handle}
    (ht : (g₀.relatedOf top.vertex)[top.followed]? = some t) (hblack : g.colorOf t = some .black) :
    Midway g₀ roots ⟨g, { top with followed := top.followed + 1 } :: below, rank⟩ left := by
  refine { h with frames := ⟨?_, h.frames.2⟩ }
  intro i hi
  rw [List.take_add_one, ht, Option.toList_some, List.mem_append, List.mem_singleton] at hi
  rcases hi with hi | rfl
  · exact h.frames.1 i hi
  · exact hblack

/-- A white vertex may be entered if the frames below it lead to it. -/
theorem enter {s : Search} (h : Midway g₀ roots s left) {t : Handle} {stack : List Frame}
    (hwhite : s.graph.colorOf t = some .white)
    (hstack : stack.map Frame.vertex = s.stack.map Frame.vertex)
    (htrail : Trail g₀.relatedOf (s.graph.colorOf · = some .black) t stack)
    (hreached : ∃ r ∈ roots, Relation.ReflTransGen g₀.Edge r t) :
    Midway g₀ roots ⟨s.graph.update t Vertex.enter, ⟨t, 0⟩ :: stack, s.rank⟩ left := by
  have hlt : t < s.graph.size := lt_size_of_colorOf hwhite
  have hcolor : ∀ i, (s.graph.update t Vertex.enter).colorOf i =
      if t = i then some .grey else s.graph.colorOf i := colorOf_enter hlt
  have hnot : t ∉ s.stack.map Frame.vertex := by
    intro hmem
    have hgrey := (h.grey t).mpr hmem
    rw [hwhite] at hgrey
    cases hgrey
  have hmono : ∀ i, s.graph.colorOf i = some .black ↔
      (s.graph.update t Vertex.enter).colorOf i = some .black := by
    intro i
    rw [hcolor]
    split
    · rename_i he
      subst he
      simp [hwhite]
    · rfl
  constructor
  case recolored =>
    exact h.recolored.trans (recolored_update _ _ Vertex.reset_enter)
  case grey =>
    intro i
    rw [hcolor, List.map_cons, hstack, List.mem_cons, ← h.grey]
    split
    · rename_i he
      simp [he]
    · rename_i hne
      simp [Ne.symm hne]
  case entered =>
    rw [List.map_cons, hstack]
    exact List.nodup_cons.mpr ⟨hnot, h.entered⟩
  case frames =>
    exact ⟨fun i hi => by simp at hi, htrail.mono fun i => (hmono i).mp⟩
  case black =>
    exact fun i => (hmono i).symm.trans (h.black i)
  case once =>
    exact h.once
  case rank =>
    exact h.rank
  case ranks =>
    exact fun i => (rankOf_enter _ _ i).trans (h.ranks i)
  case ordered =>
    exact h.ordered
  case reached =>
    intro i hi
    rw [List.map_cons, hstack, List.mem_cons] at hi
    rcases hi with hi | rfl | hi
    · exact h.reached i (.inl hi)
    · exact hreached
    · exact h.reached i (.inr hi)

end Midway

/-! ## One step -/

theorem step_of_none {v : Vertex} (hv : g.vertices[top.vertex]? = some v)
    (hnone : v.related[top.followed]? = none) :
    step g rank top below = .ok ⟨g.update top.vertex (Vertex.leave rank), below, rank + 1⟩ := by
  simp [step, get_eq_ok_iff.mpr hv, hnone, bind, Except.bind]

theorem step_of_some (rank : Nat) (below : List Frame) {v w : Vertex} {t : Handle}
    (hv : g.vertices[top.vertex]? = some v) (ht : v.related[top.followed]? = some t)
    (hw : g.vertices[t]? = some w) :
    step g rank top below = match w.color with
      | .grey => .error (closeCycle g (top :: below) t)
      | .black => .ok ⟨g, { top with followed := top.followed + 1 } :: below, rank⟩
      | .white => .ok ⟨g.update t Vertex.enter,
          ⟨t, 0⟩ :: { top with followed := top.followed + 1 } :: below, rank⟩ := by
  cases hc : w.color <;>
    simp [step, get_eq_ok_iff.mpr hv, get_eq_ok_iff.mpr hw, ht, hc, bind, Except.bind]

/-- The innermost vertex if the next step leaves it, all of its edges having been followed. -/
def leaving (g : Graph) (top : Frame) : List Handle :=
  if top.followed < (g.relatedOf top.vertex).length then [] else [top.vertex]

theorem leaving_of_none (hnone : (g.relatedOf top.vertex)[top.followed]? = none) :
    leaving g top = [top.vertex] :=
  if_neg (Nat.not_lt.mpr (List.getElem?_eq_none_iff.mp hnone))

theorem leaving_of_some {t : Handle} (ht : (g.relatedOf top.vertex)[top.followed]? = some t) :
    leaving g top = [] :=
  if_pos (List.getElem?_eq_some_iff.mp ht).1

theorem leaving_recolored (h : g₀.Recolored g) : leaving g top = leaving g₀ top := by
  rw [leaving, h.relatedOf, leaving]

/-- The search has met an edge to a vertex on its stack, and fails with the circle that it closes. -/
def Closes (g₀ : Graph) (s : Search) (e : Failure) : Prop :=
  ∃ top below t, s.stack = top :: below ∧ g₀.Edge top.vertex t ∧ t ∈ s.stack.map Frame.vertex ∧
    e = closeCycle s.graph s.stack t

/-- **A step keeps the invariant or closes a circle.** What has been entered stays entered. -/
theorem Midway.step (hclosed : g₀.ClosedFrom roots) (h : Midway g₀ roots ⟨g, top :: below, rank⟩ left) :
    (∃ s, step g rank top below = .ok s ∧ Midway g₀ roots s (left ++ leaving g₀ top) ∧
      ∀ i ∈ (top :: below).map Frame.vertex, i ∈ left ++ leaving g₀ top ∨ i ∈ s.stack.map Frame.vertex) ∨
    ∃ e, step g rank top below = .error e ∧ Closes g₀ ⟨g, top :: below, rank⟩ e := by
  obtain ⟨v, hv⟩ := exists_vertex (h.lt_size List.mem_cons_self)
  have hrelated : g₀.relatedOf top.vertex = v.related := by
    rw [← h.recolored.relatedOf, relatedOf_eq hv]
  cases ht : v.related[top.followed]? with
  | none =>
    have hnone : (g₀.relatedOf top.vertex)[top.followed]? = none := hrelated ▸ ht
    rw [leaving_of_none hnone]
    refine .inl ⟨_, step_of_none hv ht, h.leave hnone, ?_⟩
    intro i hi
    rcases List.mem_cons.mp (List.map_cons ▸ hi) with rfl | hi
    · exact .inl (by simp)
    · exact .inr hi
  | some t =>
    have hnext : (g₀.relatedOf top.vertex)[top.followed]? = some t := hrelated ▸ ht
    have hedge : g₀.Edge top.vertex t := List.mem_of_getElem? hnext
    obtain ⟨r, hr, hpath⟩ := h.reached top.vertex (.inr List.mem_cons_self)
    have hlt : t < g.size := (h.recolored.lt_size_iff t).mpr (hclosed r hr _ _ hpath hedge)
    obtain ⟨w, hw⟩ := exists_vertex hlt
    have hstep := step_of_some rank below hv ht hw
    have hcolor := colorOf_eq hw
    rw [leaving_of_some hnext, List.append_nil]
    cases hc : w.color with
    | grey =>
      rw [hc] at hstep hcolor
      exact .inr ⟨_, hstep, top, below, t, rfl, hedge, (h.grey t).mp hcolor, rfl⟩
    | black =>
      rw [hc] at hstep hcolor
      exact .inl ⟨_, hstep, h.skip hnext hcolor, fun i hi => .inr hi⟩
    | white =>
      rw [hc] at hstep hcolor
      have htrail : Trail g₀.relatedOf (g.colorOf · = some .black) t
          ({ top with followed := top.followed + 1 } :: below) := .frame hnext h.frames.1 h.frames.2
      exact .inl ⟨_, hstep, h.enter hcolor rfl htrail ⟨r, hr, hpath.tail hedge⟩,
        fun i hi => .inr (List.mem_cons_of_mem _ hi)⟩

end Search

end EvalOrder
