import EvalOrder.Graph.Basic

/-!
# Sorting by depth-first search

A search enters vertices and leaves them again. A vertex is white before it is entered, grey while it is entered and
black once all that it depends on has been left; leaving it gives it the next exit rank, so that it ranks above
everything it depends on. An edge to a grey vertex closes a circle, which ends the search; a grey vertex that is not on
the stack is a fault.

`sort` is `topological_sort`. The search is a machine: its `stack` holds the grey vertices, the innermost first, each
with the number of its edges that have been followed. `step` is the body of the loop, which follows one edge or leaves
one vertex, and `run` repeats it. A failed search leaves the graph as it was when it met the failure. `order` is
`order_formulas`.

Results:
* `step_pending`: every step leaves less to do, so a search ends.
-/

namespace EvalOrder

namespace Vertex

/-- The vertex, entered. -/
def enter (v : Vertex) : Vertex := { v with color := .grey }

/-- The vertex, left as the `rank`-th. -/
def leave (rank : Nat) (v : Vertex) : Vertex := { v with color := .black, exitRank := rank }

/-- The vertex as before any search. -/
def reset (v : Vertex) : Vertex := { v with color := .white, exitRank := 0 }

/-- What entering the vertex would cause: following each edge, entering and leaving. -/
def weight (v : Vertex) : Nat :=
  if v.color = .white then v.related.length + 2 else 0

end Vertex

/-- A grey vertex and how many of its edges have been followed. -/
structure Frame where
  vertex : Handle
  followed : Nat := 0
  deriving DecidableEq, Repr

/-- A search under way: the graph, the grey vertices with the innermost first, and the next exit rank. -/
structure Search where
  graph : Graph
  stack : List Frame
  rank : Nat
  deriving DecidableEq, Repr

namespace Search

/-- The circle that an edge from the innermost vertex to `h` closes: the entered vertices from `h` on, and
`h` again. -/
def closeCycle (g : Graph) (stack : List Frame) (h : Handle) : Failure :=
  let entered := (stack.map Frame.vertex).reverse
  if h ∈ entered then
    match g.labels (entered.dropWhile (· ≠ h) ++ [h]) with
    | .ok labels => .cyclic (.acrossLines labels)
    | .error e => e
  else .fault (.notOnStack h)

/-- Follow the next edge of the innermost vertex `top`, or leave it when there is none. -/
def step (g : Graph) (rank : Nat) (top : Frame) (below : List Frame) : Except Failure Search := do
  let v ← g.get top.vertex
  match v.related[top.followed]? with
  | none => .ok ⟨g.update top.vertex (Vertex.leave rank), below, rank + 1⟩
  | some h =>
    let top' := { top with followed := top.followed + 1 }
    match (← g.get h).color with
    | .grey => .error (closeCycle g (top :: below) h)
    | .black => .ok ⟨g, top' :: below, rank⟩
    | .white => .ok ⟨g.update h Vertex.enter, ⟨h, 0⟩ :: top' :: below, rank⟩

/-! ## How much is left to do -/

/-- The weights of the members of a list, together. -/
def total {α : Type} (w : α → Nat) : List α → Nat
  | [] => 0
  | a :: l => w a + total w l

/-- What the white vertices may still cause. -/
def whiteWeight (g : Graph) : Nat := total Vertex.weight g.vertices.toList

/-- The number of edges of a vertex. -/
def degree (g : Graph) (h : Handle) : Nat := (g.vertices[h]?.map (·.related.length)).getD 0

/-- The edges that a frame has not followed, and leaving its vertex. -/
def frameWeight (g : Graph) (f : Frame) : Nat := degree g f.vertex - f.followed + 1

/-- A bound on the steps that are left. -/
def pending (s : Search) : Nat :=
  whiteWeight s.graph + total (frameWeight s.graph) s.stack

theorem total_modify {α : Type} (w : α → Nat) (f : α → α) :
    ∀ {l : List α} {i : Nat} {a : α}, l[i]? = some a →
      total w (l.modify i f) + w a = total w l + w (f a)
  | [], i, a, h => by simp at h
  | b :: l, 0, a, h => by
    simp only [List.getElem?_cons_zero, Option.some.injEq] at h
    subst h
    simp only [List.modify_zero_cons, total]
    omega
  | b :: l, i + 1, a, h => by
    have := total_modify w f (l := l) (i := i) (a := a) (by simpa using h)
    simp only [List.modify_succ_cons, total]
    omega

theorem whiteWeight_update {g : Graph} {h : Handle} {v : Vertex} (f : Vertex → Vertex)
    (hv : g.get h = .ok v) :
    whiteWeight (g.update h f) + v.weight = whiteWeight g + (f v).weight := by
  have hl : g.vertices.toList[h]? = some v := by
    simpa using Graph.get_eq_ok_iff.mp hv
  simpa [whiteWeight, Graph.update, Array.toList_modify] using
    total_modify Vertex.weight f hl

theorem degree_update {g : Graph} {f : Vertex → Vertex} (hf : ∀ v, (f v).related = v.related)
    (h i : Handle) : degree (g.update h f) i = degree g i := by
  unfold degree
  rw [Graph.vertices_update]
  split
  · cases g.vertices[i]? <;> simp [hf]
  · rfl

theorem frameWeight_update {g : Graph} {f : Vertex → Vertex} (hf : ∀ v, (f v).related = v.related)
    (h : Handle) : frameWeight (g.update h f) = frameWeight g := by
  funext fr
  simp [frameWeight, degree_update hf]

/-- Every step leaves less to do. -/
theorem step_pending {g : Graph} {rank : Nat} {top : Frame} {below : List Frame} {s : Search}
    (h : step g rank top below = .ok s) : s.pending < pending ⟨g, top :: below, rank⟩ := by
  unfold step at h
  cases hv : g.get top.vertex with
  | error e => simp only [hv, bind, Except.bind] at h; cases h
  | ok v =>
    simp only [hv, bind, Except.bind] at h
    have hdeg : degree g top.vertex = v.related.length := by
      simp [degree, Graph.get_eq_ok_iff.mp hv]
    split at h
    · cases h
      have hw := whiteWeight_update (Vertex.leave rank) hv
      have hl : (Vertex.leave rank v).weight = 0 := by simp [Vertex.weight, Vertex.leave]
      simp only [pending, total,
        frameWeight_update (f := Vertex.leave rank) (fun _ => rfl)]
      simp only [frameWeight]
      omega
    · rename_i t ht
      have hlt : top.followed < v.related.length := (List.getElem?_eq_some_iff.mp ht).1
      cases hw : g.get t with
      | error e => simp only [hw] at h; cases h
      | ok w =>
        simp only [hw] at h
        split at h
        · cases h
        · cases h
          simp only [pending, total, frameWeight, hdeg]
          omega
        · rename_i hc
          cases h
          have hu := whiteWeight_update Vertex.enter hw
          have he : w.enter.weight = 0 := by simp [Vertex.weight, Vertex.enter]
          have hwt : w.weight = w.related.length + 2 := by simp [Vertex.weight, hc]
          have hdt : degree g t = w.related.length := by
            simp [degree, Graph.get_eq_ok_iff.mp hw]
          simp only [pending, total, frameWeight_update (f := Vertex.enter) (fun _ => rfl)]
          simp only [frameWeight, hdeg, hdt]
          omega

/-- Run a search to its end. -/
def run (s : Search) : Search × Except Failure Unit :=
  match _hs : s.stack with
  | [] => (s, .ok ())
  | top :: below =>
    match _h : step s.graph s.rank top below with
    | .error e => (s, .error e)
    | .ok s' => run s'
termination_by s.pending
decreasing_by
  have := step_pending _h
  simpa [pending, _hs] using this

/-- Search from `root`, unless it has been entered before. -/
def visit (g : Graph) (rank : Nat) (root : Handle) : Search × Except Failure Unit :=
  match g.get root with
  | .error e => (⟨g, [], rank⟩, .error e)
  | .ok v =>
    if v.color = .white then run ⟨g.update root Vertex.enter, [⟨root, 0⟩], rank⟩
    else (⟨g, [], rank⟩, .ok ())

/-- Search from each root in turn. -/
def visitAll (g : Graph) (rank : Nat) : List Handle → Search × Except Failure Unit
  | [] => (⟨g, [], rank⟩, .ok ())
  | root :: roots =>
    match visit g rank root with
    | (s, .error e) => (s, .error e)
    | (s, .ok ()) => visitAll s.graph s.rank roots

end Search

namespace Graph

/-- Make vertices white and unranked, in order; one that is not there stops it. -/
def resetAll (g : Graph) : List Handle → Graph × Except Failure Unit
  | [] => (g, .ok ())
  | h :: hs =>
    match g.modify h Vertex.reset with
    | .error e => (g, .error e)
    | .ok g => g.resetAll hs

/-- `topological_sort`: search from each of `handles`, all of which are made white and unranked first; ranks count from
1. -/
def sort (g : Graph) (handles : List Handle) : Graph × Except Failure Unit :=
  match g.resetAll handles with
  | (g, .error e) => (g, .error e)
  | (g, .ok ()) =>
    let (s, outcome) := Search.visitAll g 1 handles
    (s.graph, outcome)

/-- The exit rank of a handle. -/
def rankOf (g : Graph) (h : Handle) : Int := (g.vertices[h]?.map Vertex.exitRank).getD 0

/-- The formulas by exit rank. -/
def ranked (g : Graph) : List Handle :=
  g.formulas.mergeSort fun a b => g.rankOf a ≤ g.rankOf b

/-- `order_formulas`: sort the formulas, so that each comes after every formula it depends on. -/
def order (g : Graph) : Graph × Except Failure (List Handle) :=
  match g.sort g.formulas with
  | (g, .error e) => (g, .error e)
  | (g, .ok ()) => (g, .ok g.ranked)

end Graph

end EvalOrder
