import EvalOrder.Proofs.Sorting
import Mathlib.Data.List.Permutation

/-!
# The search as a recursion

Depth-first search as it is usually written down: to visit a vertex, make it grey, go through what it depends on,
give it the next rank and make it black; on the way a grey vertex closes a circle, a black one is passed over and
a white one is visited. The chain of visits under way is the `path` from the root, and takes the place of the
stack. A visit leaves fewer vertices white, so visits end.

The machine does the same. Above any frames it does what a visit does, and if that ends well it goes on with
these frames; so the statement about a visit can be used for the visits inside it.

Results:
* `visit_follow_induction`: induction along the recursion.
* `keeps_visit`, `keeps_follow`: what a visit leaves alone.
* `runs_all`: what the machine does above some frames.
* `sort_eq`, **`sort_eq_recursion`**: sorting is the recursion.
-/

namespace EvalOrder

open EvalOrder.Graph Search

namespace Recursion

/-! ## Visits -/

/-- The number of white vertices. -/
def whites (g : Graph) : Nat :=
  total (fun v : Vertex => if v.color = .white then 1 else 0) g.vertices.toList

theorem whites_update {g : Graph} {h : Handle} {v : Vertex} (hv : g.vertices[h]? = some v)
    (f : Vertex → Vertex) :
    whites (g.update h f) + (if v.color = .white then 1 else 0) =
      whites g + if (f v).color = .white then 1 else 0 := by
  have hl : g.vertices.toList[h]? = some v := by simpa using hv
  simpa [whites, Graph.update, Array.toList_modify] using
    total_modify (fun v : Vertex => if v.color = .white then 1 else 0) f hl

theorem whites_enter {g : Graph} {h : Handle} (hw : g.colorOf h = some .white) :
    whites (g.update h Vertex.enter) < whites g := by
  obtain ⟨v, hv, hc⟩ := Option.map_eq_some_iff.mp hw
  have hcount := whites_update hv Vertex.enter
  simp only [hc, Vertex.enter, if_true, reduceCtorEq, if_false] at hcount
  omega

theorem whites_leave (g : Graph) (h : Handle) (rank : Nat) :
    whites (g.update h (Vertex.leave rank)) ≤ whites g := by
  cases hv : g.vertices[h]? with
  | some v =>
    have hcount := whites_update hv (Vertex.leave rank)
    simp only [Vertex.leave, reduceCtorEq, if_false] at hcount
    omega
  | none =>
    have hsame : (g.update h (Vertex.leave rank)).vertices = g.vertices := by
      refine Array.ext_getElem? fun i => ?_
      rw [vertices_update]
      split
      · rename_i he
        rw [← he, hv, Option.map_none]
      · rfl
    rw [whites, hsame, whites]

/-- What visiting comes to: the graph, the next exit rank, and how it ended. -/
structure Visited where
  graph : Graph
  rank : Nat
  outcome : Except Failure Unit

/-- The circle that an edge from the last vertex of a path to `h` closes: the path from `h` on, and `h` again. -/
def circle (g : Graph) (path : List Handle) (h : Handle) : Failure :=
  .cyclic (.acrossLines ((path.dropWhile (· ≠ h) ++ [h]).filterMap g.nameOf?))

mutual

/-- Visit the white vertex `h`, to which `path` leads: it becomes grey, what it depends on is gone through, then
it gets the next rank and becomes black. -/
def visit (g : Graph) (rank : Nat) (path : List Handle) (h : Handle) (hw : g.colorOf h = some .white) :
    { r : Visited // whites r.graph ≤ whites g } :=
  let inner := follow (g.update h Vertex.enter) rank (path ++ [h]) (g.relatedOf h)
  have hfades := Nat.le_trans inner.2 (Nat.le_of_lt (whites_enter hw))
  match inner.1.outcome with
  | .error _ => ⟨inner.1, hfades⟩
  | .ok () => ⟨⟨inner.1.graph.update h (Vertex.leave inner.1.rank), inner.1.rank + 1, .ok ()⟩,
      Nat.le_trans (whites_leave _ _ _) hfades⟩
termination_by (whites g, 0)
decreasing_by exact Prod.Lex.left _ _ (whites_enter hw)

/-- Go through vertices that the last one of `path` depends on: a grey one closes a circle, a black one is passed
over, a white one is visited. -/
def follow (g : Graph) (rank : Nat) (path : List Handle) :
    List Handle → { r : Visited // whites r.graph ≤ whites g }
  | [] => ⟨⟨g, rank, .ok ()⟩, Nat.le_refl _⟩
  | t :: ts =>
    match hc : g.colorOf t with
    | none => ⟨⟨g, rank, .error (.fault .handle)⟩, Nat.le_refl _⟩
    | some .grey => ⟨⟨g, rank, .error (circle g path t)⟩, Nat.le_refl _⟩
    | some .black => follow g rank path ts
    | some .white =>
      let first := visit g rank path t hc
      match first.1.outcome with
      | .error _ => first
      | .ok () =>
        let later := follow first.1.graph first.1.rank path ts
        ⟨later.1, Nat.le_trans later.2 first.2⟩
termination_by ts => (whites g, ts.length + 1)
decreasing_by
  · exact Prod.Lex.right _ (Nat.lt_succ_self _)
  · exact Prod.Lex.right _ (Nat.succ_pos _)
  · rcases Nat.lt_or_eq_of_le first.2 with h | h
    · exact Prod.Lex.left _ _ h
    · rw [h]
      exact Prod.Lex.right _ (Nat.lt_succ_self _)

end

/-- Visit the white ones among some vertices, in order. -/
def visitEach (g : Graph) (rank : Nat) : List Handle → Visited
  | [] => ⟨g, rank, .ok ()⟩
  | h :: hs =>
    match hc : g.colorOf h with
    | some .white =>
      let first := (visit g rank [] h hc).1
      match first.outcome with
      | .error _ => first
      | .ok () => visitEach first.graph first.rank hs
    | _ => visitEach g rank hs

/-- Sort some vertices: all of them are reset, then the white ones among them visited, with ranks from 1. -/
def sort (g : Graph) (handles : List Handle) : Graph × Except Failure Unit :=
  let r := visitEach (handles.foldl (fun g h => g.update h Vertex.reset) g) 1 handles
  (r.graph, r.outcome)

/-! ## The rules of the recursion -/

namespace Visited

/-- Go on if all went well. -/
def andThen (r : Visited) (next : Graph → Nat → Visited) : Visited :=
  match r.outcome with
  | .error _ => r
  | .ok () => next r.graph r.rank

theorem andThen_of_ok {r : Visited} (h : r.outcome = .ok ()) (next : Graph → Nat → Visited) :
    r.andThen next = next r.graph r.rank := by
  simp [andThen, h]

theorem andThen_of_error {r : Visited} {e : Failure} (h : r.outcome = .error e)
    (next : Graph → Nat → Visited) : r.andThen next = r := by
  simp [andThen, h]

end Visited

variable {g : Graph} {rank : Nat} {path : List Handle}

theorem visit_eq {h : Handle} (hw : g.colorOf h = some .white) :
    (visit g rank path h hw).1 =
      (follow (g.update h Vertex.enter) rank (path ++ [h]) (g.relatedOf h)).1.andThen fun g' rank' =>
        ⟨g'.update h (Vertex.leave rank'), rank' + 1, .ok ()⟩ := by
  rw [visit, Visited.andThen]
  split <;> rfl

theorem follow_nil : (follow g rank path []).1 = ⟨g, rank, .ok ()⟩ := by
  rw [follow]

theorem follow_of_grey {t : Handle} (hc : g.colorOf t = some .grey) (ts : List Handle) :
    (follow g rank path (t :: ts)).1 = ⟨g, rank, .error (circle g path t)⟩ := by
  rw [follow]
  split <;> simp_all

theorem follow_of_black {t : Handle} (hc : g.colorOf t = some .black) (ts : List Handle) :
    (follow g rank path (t :: ts)).1 = (follow g rank path ts).1 := by
  rw [follow]
  split <;> simp_all

theorem follow_of_missing {t : Handle} (hc : g.colorOf t = none) (ts : List Handle) :
    (follow g rank path (t :: ts)).1 = ⟨g, rank, .error (.fault .handle)⟩ := by
  rw [follow]
  split <;> simp_all

theorem follow_of_white {t : Handle} (hc : g.colorOf t = some .white) (ts : List Handle) :
    (follow g rank path (t :: ts)).1 =
      (visit g rank path t hc).1.andThen fun g' rank' => (follow g' rank' path ts).1 := by
  rw [follow]
  split
  · simp_all
  · simp_all
  · simp_all
  · cases hout : (visit g rank path t hc).1.outcome <;> simp [hout, Visited.andThen]

/-- **Induction along the recursion**, with a case for each way to go. -/
theorem visit_follow_induction {V : Graph → Nat → List Handle → Handle → Visited → Prop}
    {F : Graph → Nat → List Handle → List Handle → Visited → Prop}
    (visit : ∀ {g rank path h r}, g.colorOf h = some .white →
      F (g.update h Vertex.enter) rank (path ++ [h]) (g.relatedOf h) r →
      V g rank path h (r.andThen fun g' rank' => ⟨g'.update h (Vertex.leave rank'), rank' + 1, .ok ()⟩))
    (nil : ∀ {g rank path}, F g rank path [] ⟨g, rank, .ok ()⟩)
    (missing : ∀ {g rank path t ts}, g.colorOf t = none →
      F g rank path (t :: ts) ⟨g, rank, .error (.fault .handle)⟩)
    (grey : ∀ {g rank path t ts}, g.colorOf t = some .grey →
      F g rank path (t :: ts) ⟨g, rank, .error (circle g path t)⟩)
    (black : ∀ {g rank path t ts r}, g.colorOf t = some .black → F g rank path ts r → F g rank path (t :: ts) r)
    (failed : ∀ {g rank path t ts r e}, g.colorOf t = some .white → V g rank path t r → r.outcome = .error e →
      F g rank path (t :: ts) r)
    (white : ∀ {g rank path t ts r r'} (hc : g.colorOf t = some .white), (Recursion.visit g rank path t hc).1 = r →
      V g rank path t r → r.outcome = .ok () → F r.graph r.rank path ts r' → F g rank path (t :: ts) r') :
    (∀ g rank path h hw, V g rank path h (Recursion.visit g rank path h hw).1) ∧
      ∀ g rank path ts, F g rank path ts (follow g rank path ts).1 := by
  have hfollow : ∀ g rank path ts, F g rank path ts (follow g rank path ts).1 := by
    refine follow.induct (fun g rank path h hw => V g rank path h (Recursion.visit g rank path h hw).1)
      (fun g rank path ts => F g rank path ts (follow g rank path ts).1) ?_ ?_ ?_ ?_ ?_ ?_ ?_ ?_
    · intro g rank path h hw _ _ e _ hinner
      rw [visit_eq hw]
      exact visit hw hinner
    · intro g rank path h hw _ _ _ hinner
      rw [visit_eq hw]
      exact visit hw hinner
    · intro g rank path
      rw [follow_nil]
      exact nil
    · intro g rank path t ts hc
      rw [follow_of_missing hc]
      exact missing hc
    · intro g rank path t ts hc
      rw [follow_of_grey hc]
      exact grey hc
    · intro g rank path t ts hc hrest
      rw [follow_of_black hc]
      exact black hc hrest
    · intro g rank path t ts hc _ e herror hfirst
      rw [follow_of_white hc, Visited.andThen_of_error herror]
      exact failed hc hfirst herror
    · intro g rank path t ts hc _ hok hfirst _ hrest
      rw [follow_of_white hc, Visited.andThen_of_ok hok]
      exact white hc rfl hfirst hok hrest
  refine ⟨?_, hfollow⟩
  intro g rank path h hw
  rw [visit_eq hw]
  exact visit hw (hfollow _ _ _ _)

/-! ## What a visit leaves alone -/

/-- Only colours and ranks change; black vertices stay black, and a visit that ends well leaves as many grey as it
found. -/
structure Keeps (g : Graph) (r : Visited) : Prop where
  recolored : g.Recolored r.graph
  black : ∀ i, g.colorOf i = some .black → r.graph.colorOf i = some .black
  grey : r.outcome = .ok () → ∀ i, r.graph.colorOf i = some .grey ↔ g.colorOf i = some .grey

theorem Keeps.refl (g : Graph) (rank : Nat) (outcome : Except Failure Unit) : Keeps g ⟨g, rank, outcome⟩ :=
  ⟨.refl g, fun _ => id, fun _ _ => Iff.rfl⟩

theorem Keeps.trans {r r' : Visited} (h : Keeps g r) (hok : r.outcome = .ok ()) (h' : Keeps r.graph r') :
    Keeps g r' :=
  ⟨h.recolored.trans h'.recolored, fun i hi => h'.black i (h.black i hi),
    fun hok' i => (h'.grey hok' i).trans (h.grey hok i)⟩

/-- A visit that goes well makes its vertex black. -/
theorem Keeps.visited {h : Handle} {r : Visited} (hw : g.colorOf h = some .white)
    (hr : Keeps (g.update h Vertex.enter) r) :
    Keeps g (r.andThen fun g' rank' => ⟨g'.update h (Vertex.leave rank'), rank' + 1, .ok ()⟩) := by
  have hlt : h < g.size := lt_size_of_colorOf hw
  have hentered := colorOf_enter hlt
  have hsame := (recolored_update g h Vertex.reset_enter).trans hr.recolored
  have hblack : ∀ i, g.colorOf i = some .black → r.graph.colorOf i = some .black := by
    intro i hi
    refine hr.black i ?_
    rw [hentered, if_neg, hi]
    rintro rfl
    simp [hw] at hi
  cases hout : r.outcome with
  | error e =>
    rw [Visited.andThen_of_error hout]
    exact ⟨hsame, hblack, fun hok => by simp [hout] at hok⟩
  | ok u =>
    rw [Visited.andThen_of_ok hout]
    have hleft := colorOf_leave (hsame.size_eq ▸ hlt : h < r.graph.size) r.rank
    refine ⟨hsame.trans (recolored_update _ h (Vertex.reset_leave _)), ?_, ?_⟩
    · intro i hi
      simp only [hleft]
      split
      · rfl
      · exact hblack i hi
    · intro _ i
      simp only [hleft]
      by_cases he : h = i
      · subst he
        simp [hw]
      · rw [if_neg he, hr.grey hout, hentered, if_neg he]

theorem keeps_all :
    (∀ g rank path h hw, Keeps g (visit g rank path h hw).1) ∧
      ∀ g rank path ts, Keeps g (follow g rank path ts).1 := by
  apply visit_follow_induction (V := fun g _ _ _ r => Keeps g r) (F := fun g _ _ _ r => Keeps g r)
  case visit => exact fun hw hr => hr.visited hw
  case nil => exact .refl _ _ _
  case missing => exact fun _ => .refl _ _ _
  case grey => exact fun _ => .refl _ _ _
  case black => exact fun _ hr => hr
  case failed => exact fun _ hr _ => hr
  case white => exact fun _ _ hr hok hr' => hr.trans hok hr'

theorem keeps_visit {h : Handle} (hw : g.colorOf h = some .white) : Keeps g (visit g rank path h hw).1 :=
  keeps_all.1 _ _ _ _ _

theorem keeps_follow {ts : List Handle} : Keeps g (follow g rank path ts).1 :=
  keeps_all.2 _ _ _ _

/-! ## The machine does the same -/

theorem eq_filterMap_of_labels {hs : List Handle} {ls : List String} (h : g.labels hs = .ok ls) :
    ls = hs.filterMap g.nameOf? := by
  rw [labels_eq_ok_iff] at h
  induction h with
  | nil => rfl
  | cons hname _ ih => rw [List.filterMap_cons_some hname, ← ih]

theorem labels_eq_filterMap {hs : List Handle} (h : ∀ i ∈ hs, i < g.size) :
    g.labels hs = .ok (hs.filterMap g.nameOf?) := by
  obtain ⟨ls, hls⟩ := exists_labels h
  rw [hls, eq_filterMap_of_labels hls]

/-- What a run of the machine comes to. -/
def ofRun (x : Search × Except Failure Unit) : Visited := ⟨x.1.graph, x.1.rank, x.2⟩

theorem run_of_empty {s : Search} (h : s.stack = []) : Search.run s = (s, .ok ()) := by
  rw [Search.run]
  split <;> simp_all

theorem run_of_step {top : Frame} {below : List Frame} {s : Search}
    (h : step g rank top below = .ok s) : Search.run ⟨g, top :: below, rank⟩ = Search.run s := by
  rw [Search.run]
  split
  · rename_i hs
    cases hs
  · rename_i hs
    cases hs
    split
    · simp_all
    · simp_all

theorem run_of_error {top : Frame} {below : List Frame} {e : Failure}
    (h : step g rank top below = .error e) :
    Search.run ⟨g, top :: below, rank⟩ = (⟨g, top :: below, rank⟩, .error e) := by
  rw [Search.run]
  split
  · rename_i hs
    cases hs
  · rename_i hs
    cases hs
    split
    · simp_all
    · simp_all

/-- The vertices on a stack, as a path from the root. -/
def pathOf (stack : List Frame) : List Handle := (stack.map Frame.vertex).reverse

theorem pathOf_cons (top : Frame) (below : List Frame) : pathOf (top :: below) = pathOf below ++ [top.vertex] := by
  simp [pathOf]

/-- The visits under way are those on the path, and edges lead to vertices. -/
structure UnderWay (g : Graph) (path : List Handle) : Prop where
  closed : ∀ a b, g.Edge a b → b < g.size
  inRange : ∀ i ∈ path, i < g.size
  grey : ∀ i, g.colorOf i = some .grey → i ∈ path

namespace UnderWay

/-- It is all about what the recursion keeps. -/
theorem of_keeps (h : UnderWay g path) {r : Visited} (hr : Keeps g r) (hok : r.outcome = .ok ()) :
    UnderWay r.graph path where
  closed := by
    rw [hr.recolored.edge_eq, hr.recolored.size_eq]
    exact h.closed
  inRange := hr.recolored.size_eq ▸ h.inRange
  grey i hi := h.grey i ((hr.grey hok i).mp hi)

theorem enter (h : UnderWay g path) {v : Handle} (hw : g.colorOf v = some .white) :
    UnderWay (g.update v Vertex.enter) (path ++ [v]) := by
  have hlt : v < g.size := lt_size_of_colorOf hw
  have hsame := recolored_update g v Vertex.reset_enter
  constructor
  case closed =>
    rw [hsame.edge_eq, hsame.size_eq]
    exact h.closed
  case inRange =>
    rw [hsame.size_eq]
    intro i hi
    rcases List.mem_append.mp hi with hi | hi
    · exact h.inRange i hi
    · exact List.mem_singleton.mp hi ▸ hlt
  case grey =>
    intro i hi
    rw [colorOf_enter hlt] at hi
    split at hi
    · rename_i he
      simp [he]
    · exact List.mem_append_left _ (h.grey i hi)

/-- The machine reports the same circle: all of its vertices have labels. -/
theorem closeCycle_eq {stack : List Frame} (h : UnderWay g (pathOf stack)) {t : Handle}
    (ht : g.colorOf t = some .grey) : closeCycle g stack t = circle g (pathOf stack) t := by
  have hmem : t ∈ pathOf stack := h.grey t ht
  have hrange : ∀ i ∈ (pathOf stack).dropWhile (· ≠ t) ++ [t], i < g.size := by
    intro i hi
    rcases List.mem_append.mp hi with hi | hi
    · exact h.inRange i ((List.dropWhile_sublist _).mem hi)
    · exact List.mem_singleton.mp hi ▸ h.inRange t hmem
  unfold closeCycle
  simp only
  rw [show (stack.map Frame.vertex).reverse = pathOf stack from rfl, if_pos hmem, labels_eq_filterMap hrange,
    circle]

end UnderWay

/-- What the machine does above the frames `below` once the vertex `h` has been entered. -/
def RunsVisit (g : Graph) (rank : Nat) (path : List Handle) (h : Handle) (r : Visited) : Prop :=
  ∀ below : List Frame, pathOf below = path → UnderWay g path →
    ofRun (Search.run ⟨g.update h Vertex.enter, ⟨h, 0⟩ :: below, rank⟩) =
      r.andThen fun g' rank' => ofRun (Search.run ⟨g', below, rank'⟩)

/-- What it does when the edges to `ts` of the innermost vertex are left to follow. -/
def RunsFollow (g : Graph) (rank : Nat) (path : List Handle) (ts : List Handle) (r : Visited) : Prop :=
  ∀ (top : Frame) (below : List Frame), pathOf (top :: below) = path → UnderWay g path →
    (g.relatedOf top.vertex).drop top.followed = ts →
    ofRun (Search.run ⟨g, top :: below, rank⟩) =
      r.andThen fun g' rank' =>
        ofRun (Search.run ⟨g'.update top.vertex (Vertex.leave rank'), below, rank' + 1⟩)

theorem getElem?_of_drop_cons {α : Type} {l : List α} {k : Nat} {t : α} {ts : List α} (h : l.drop k = t :: ts) :
    l[k]? = some t ∧ l.drop (k + 1) = ts := by
  constructor
  · have := congrArg List.head? h
    simpa using this
  · rw [← List.drop_drop, h]
    rfl

/-- The step of the machine along an edge. -/
theorem UnderWay.step_eq {top : Frame} {below : List Frame} {t : Handle} {ts : List Handle} {c : Color}
    (h : UnderWay g (pathOf (top :: below))) (hts : (g.relatedOf top.vertex).drop top.followed = t :: ts) :
    g.colorOf t = some c → step g rank top below = match c with
      | .grey => .error (circle g (pathOf (top :: below)) t)
      | .black => .ok ⟨g, { top with followed := top.followed + 1 } :: below, rank⟩
      | .white => .ok ⟨g.update t Vertex.enter,
          ⟨t, 0⟩ :: { top with followed := top.followed + 1 } :: below, rank⟩ := by
  intro hc
  obtain ⟨v, hv⟩ := exists_vertex (h.inRange top.vertex (by simp [pathOf_cons]))
  obtain ⟨w, hw, rfl⟩ := Option.map_eq_some_iff.mp hc
  have ht : v.related[top.followed]? = some t := relatedOf_eq hv ▸ (getElem?_of_drop_cons hts).1
  rw [step_of_some rank below hv ht hw]
  cases hw' : w.color with
  | grey => simp only [h.closeCycle_eq (hc.trans (congrArg some hw'))]
  | black => rfl
  | white => rfl

theorem runs_all :
    (∀ g rank path h hw, RunsVisit g rank path h (visit g rank path h hw).1) ∧
      ∀ g rank path ts, RunsFollow g rank path ts (follow g rank path ts).1 := by
  apply visit_follow_induction (V := RunsVisit) (F := RunsFollow)
  case visit =>
    intro g rank path h r hw hinner below hpath hway
    have hrelated : (g.update h Vertex.enter).relatedOf h = g.relatedOf h :=
      (recolored_update g h Vertex.reset_enter).relatedOf h
    rw [hinner ⟨h, 0⟩ below (by rw [pathOf_cons, hpath]) (hway.enter hw) (by rw [hrelated]; rfl)]
    cases hout : r.outcome with
    | error e => simp [Visited.andThen_of_error hout]
    | ok u => simp [Visited.andThen, hout]
  case nil =>
    intro g rank path top below hpath hway hts
    obtain ⟨v, hv⟩ := exists_vertex (hway.inRange top.vertex (by simp [← hpath, pathOf_cons]))
    rw [relatedOf_eq hv, List.drop_eq_nil_iff] at hts
    rw [run_of_step (step_of_none hv (List.getElem?_eq_none hts))]
    rfl
  case missing =>
    intro g rank path t ts hc top below hpath hway hts
    have hlt : t < g.size := hway.closed top.vertex t (List.mem_of_getElem? (getElem?_of_drop_cons hts).1)
    rw [← colorOf_isSome_iff, hc] at hlt
    cases hlt
  case grey =>
    intro g rank path t ts hc top below hpath hway hts
    subst hpath
    rw [run_of_error (hway.step_eq hts hc)]
    rfl
  case black =>
    intro g rank path t ts r hc hrest top below hpath hway hts
    subst hpath
    rw [run_of_step (hway.step_eq hts hc)]
    exact hrest _ below rfl hway (getElem?_of_drop_cons hts).2
  case failed =>
    intro g rank path t ts r e hc hfirst herror top below hpath hway hts
    subst hpath
    rw [run_of_step (hway.step_eq hts hc),
      hfirst ({ top with followed := top.followed + 1 } :: below) rfl hway,
      Visited.andThen_of_error herror, Visited.andThen_of_error herror]
  case white =>
    intro g rank path t ts r r' hc hr hfirst hok hrest top below hpath hway hts
    subst hpath
    have hkeeps : Keeps g r := hr ▸ keeps_visit hc
    rw [run_of_step (hway.step_eq hts hc),
      hfirst ({ top with followed := top.followed + 1 } :: below) rfl hway, Visited.andThen_of_ok hok]
    refine hrest _ below rfl (hway.of_keeps hkeeps hok) ?_
    rw [hkeeps.recolored.relatedOf]
    exact (getElem?_of_drop_cons hts).2

/-- From a root the machine does what a visit does. -/
theorem ofRun_visit {h : Handle} (hw : g.colorOf h = some .white) (hway : UnderWay g []) :
    ofRun (Search.visit g rank h) = (visit g rank [] h hw).1 := by
  obtain ⟨v, hv, hc⟩ := Option.map_eq_some_iff.mp hw
  unfold Search.visit
  simp only [get_eq_ok_iff.mpr hv, hc, if_true]
  rw [runs_all.1 g rank [] h hw [] rfl hway]
  cases hout : (visit g rank [] h hw).1.outcome with
  | error e => rw [Visited.andThen_of_error hout]
  | ok u =>
    rw [Visited.andThen_of_ok hout, Search.run, ← hout]
    rfl

theorem visitEach_of_white {h : Handle} (hw : g.colorOf h = some .white) (hs : List Handle) :
    visitEach g rank (h :: hs) = (visit g rank [] h hw).1.andThen fun g' rank' => visitEach g' rank' hs := by
  rw [visitEach]
  split
  · rfl
  · simp_all

theorem visitEach_of_ne_white {h : Handle} (hw : g.colorOf h ≠ some .white) (hs : List Handle) :
    visitEach g rank (h :: hs) = visitEach g rank hs := by
  rw [visitEach]
  split
  · simp_all
  · rfl

/-- From several roots. -/
theorem ofRun_visitAll : ∀ {handles : List Handle} {g : Graph} {rank : Nat}, UnderWay g [] →
    (∀ h ∈ handles, h < g.size) → ofRun (Search.visitAll g rank handles) = visitEach g rank handles
  | [], g, rank, _, _ => rfl
  | h :: handles, g, rank, hway, hlt => by
    obtain ⟨hh, hlt⟩ := List.forall_mem_cons.mp hlt
    obtain ⟨v, hv⟩ := exists_vertex hh
    by_cases hw : g.colorOf h = some .white
    · have hvisit : ofRun (Search.visit g rank h) = (visit g rank [] h hw).1 := ofRun_visit hw hway
      have hkeeps : Keeps g (visit g rank [] h hw).1 := keeps_visit hw
      rw [visitEach_of_white hw, ← hvisit]
      rw [← hvisit] at hkeeps
      unfold Search.visitAll
      generalize Search.visit g rank h = x at hkeeps
      obtain ⟨s, outcome⟩ := x
      cases outcome with
      | error e => rfl
      | ok u =>
        refine ofRun_visitAll (hway.of_keeps hkeeps rfl) ?_
        intro i hi
        exact (hkeeps.recolored.lt_size_iff i).mpr (hlt i hi)
    · have hskip : Search.visit g rank h = (⟨g, [], rank⟩, .ok ()) := by
        unfold Search.visit
        simp only [get_eq_ok_iff.mpr hv]
        rw [if_neg fun hc => hw ((colorOf_eq hv).trans (congrArg some hc))]
      rw [visitEach_of_ne_white hw, Search.visitAll, hskip]
      exact ofRun_visitAll hway hlt

/-! ## Sorting -/

theorem resetAll_eq_foldl : ∀ {handles : List Handle} {g : Graph}, (∀ h ∈ handles, h < g.size) →
    g.resetAll handles = (handles.foldl (fun g h => g.update h Vertex.reset) g, .ok ())
  | [], g, _ => rfl
  | h :: handles, g, hlt => by
    obtain ⟨hh, hlt⟩ := List.forall_mem_cons.mp hlt
    obtain ⟨v, hv⟩ := get_isOk_iff.mpr hh
    have hmodify : g.modify h Vertex.reset = .ok (g.update h Vertex.reset) := by
      simp [Graph.modify, hv, bind, Except.bind]
    rw [resetAll, hmodify]
    exact resetAll_eq_foldl (by simpa using hlt)

/-- Edges start at vertices. -/
theorem lt_size_of_edge {a b : Handle} (h : g.Edge a b) : a < g.size := by
  refine Nat.lt_of_not_le fun hle => ?_
  rw [Edge, Graph.relatedOf, Array.getElem?_eq_none hle] at h
  exact absurd h List.not_mem_nil

theorem sort_eq {handles : List Handle} (hclosed : ∀ a b, g.Edge a b → b < g.size)
    (hlt : ∀ h ∈ handles, h < g.size) (hgrey : ∀ h, g.colorOf h = some .grey → h ∈ handles) :
    g.sort handles = sort g handles := by
  obtain ⟨g₀, hreset, hsame, hvertices⟩ := resetAll_eq hlt
  have hcolor := colorOf_resetAll hvertices hlt
  have hway : UnderWay g₀ [] := by
    constructor
    case closed =>
      rw [hsame.edge_eq, hsame.size_eq]
      exact hclosed
    case inRange => exact fun _ hi => absurd hi List.not_mem_nil
    case grey =>
      intro i hi
      rw [hcolor] at hi
      split at hi
      · cases hi
      · rename_i hnot
        exact absurd (hgrey i hi) hnot
  have hrun : ofRun (Search.visitAll g₀ 1 handles) = visitEach g₀ 1 handles :=
    ofRun_visitAll hway (hsame.size_eq ▸ hlt)
  rw [resetAll_eq_foldl hlt] at hreset
  obtain ⟨rfl, -⟩ := Prod.mk.inj hreset
  unfold Graph.sort
  rw [sort, ← hrun, resetAll_eq_foldl hlt]
  rfl

/-- **Sorting is the recursion**: it comes to the same colours and ranks, ends alike and reports the same circle,
and changes nothing but colours and ranks. Edges must lead to vertices, and no vertex may be grey but the given
ones. -/
theorem sort_eq_recursion {g : Graph} {handles : List Handle}
    (hclosed : ∀ v ∈ g.vertices, ∀ t ∈ v.related, t < g.size) (hlt : ∀ h ∈ handles, h < g.size)
    (hgrey : ∀ h < g.size, g.colorOf h = some .grey → h ∈ handles) :
    g.sort handles = sort g handles ∧ g.Recolored (g.sort handles).1 ∧
      ∀ e, (g.sort handles).2 = .error e → ∃ h rest, g.Circle h rest ∧
        e = .cyclic (.acrossLines ((h :: (rest ++ [h])).filterMap g.nameOf?)) := by
  have hedges : ∀ a b, g.Edge a b → b < g.size := by
    intro a b hab
    obtain ⟨v, hv⟩ := exists_vertex (lt_size_of_edge hab)
    rw [Edge, relatedOf_eq hv] at hab
    exact hclosed v (Array.mem_of_getElem? hv) b hab
  have hgrey' : ∀ h, g.colorOf h = some .grey → h ∈ handles := fun h hh =>
    hgrey h (lt_size_of_colorOf hh) hh
  refine ⟨sort_eq hedges hlt hgrey', ?_⟩
  obtain ⟨g₀, s, outcome, hsort, hsame, -, hcomes⟩ :=
    sort_comes hlt (fun _ _ a b _ => hedges a b) hgrey'
  rw [hsort]
  cases hcomes with
  | done hend => exact ⟨hsame.trans hend.recolored, fun e he => by cases he⟩
  | circular hend hcloses =>
    obtain ⟨h, rest, labels, rfl, hlabels, hcircle, -⟩ := hcloses.circle hend
    have hall := hsame.trans hend.recolored
    refine ⟨hall, fun e he => ⟨h, rest, ⟨hcircle.nodup, hsame.edge_eq ▸ hcircle.chain⟩, ?_⟩⟩
    rw [← Except.error.inj he, eq_filterMap_of_labels hlabels, funext hall.nameOf?]

/-- Edges that lead back to where they start, edges that are there twice, and vertices that are not white. -/
def tangle : Graph where
  vertices := #[{ handle := 0, name := "a", related := [1, 1, 2] },
    { handle := 1, name := "b", related := [2], color := .grey },
    { handle := 2, name := "c", color := .black, exitRank := 5 },
    { handle := 3, name := "d", related := [0, 3], color := .black, exitRank := 7 }]

/-- On the way to the circle of `d` two vertices are left for good. -/
theorem sort_tangle :
    ((∀ v ∈ tangle.vertices, ∀ t ∈ v.related, t < tangle.size) ∧ (∀ h ∈ [3, 1, 3], h < tangle.size) ∧
      ∀ h < tangle.size, tangle.colorOf h = some .grey → h ∈ [3, 1, 3]) ∧
    (tangle.sort [3, 1, 3]).2 = .error (.cyclic (.acrossLines ["d", "d"])) ∧
    sort tangle [3, 1, 3] = ({ vertices := #[
      { handle := 0, name := "a", related := [1, 1, 2], color := .black, exitRank := 2 },
      { handle := 1, name := "b", related := [2], color := .black, exitRank := 1 },
      { handle := 2, name := "c", color := .black, exitRank := 5 },
      { handle := 3, name := "d", related := [0, 3], color := .grey }] },
      .error (.cyclic (.acrossLines ["d", "d"]))) := by
  have hclosed : ∀ v ∈ tangle.vertices, ∀ t ∈ v.related, t < tangle.size := by decide
  have hlt : ∀ h ∈ [3, 1, 3], h < tangle.size := by decide
  have hgrey : ∀ h < tangle.size, tangle.colorOf h = some .grey → h ∈ [3, 1, 3] := by decide
  refine ⟨⟨hclosed, hlt, hgrey⟩, by cbv, ?_⟩
  rw [← (sort_eq_recursion hclosed hlt hgrey).1]
  cbv

end Recursion

end EvalOrder
