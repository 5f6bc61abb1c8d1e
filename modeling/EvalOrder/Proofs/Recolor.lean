import EvalOrder.Graph.DependencyView
import EvalOrder.Graph.Link
import EvalOrder.Graph.Sort
import Mathlib.Data.List.Forall2
import Mathlib.Data.Nat.Basic
import Mathlib.Order.Basic

/-!
# Colours and ranks

A search changes the colours and ranks of vertices and nothing else. `Recolored` says so of two graphs, so
that names, labels and edges need not be followed through a search; `colorOf` and `rankOf` are what is left
to follow.

Results:
* `map_eq_of_part`, `size_eq_of_part`: graphs whose vertices are the same in part.
* `recolored_update`: entering, leaving and resetting a vertex.
* `Recolored.relatedOf`, `Recolored.nameOf?`, `Recolored.size_eq`: what stays the same.
* `colorOf_enter`, `colorOf_leave`, `rankOf_enter`, `rankOf_leave`: what does not.
* `resetAll_eq`, `colorOf_resetAll`, `rankOf_resetAll`: resetting a list of vertices.
* `labels_eq_ok_iff`, `exists_labels`: the labels of a list of vertices.
-/

namespace EvalOrder

/-- A function succeeds on a list if it does on each member. -/
theorem mapM_eq_ok_iff {α β : Type} (f : α → Except Failure β) {xs : List α} {ys : List β} :
    xs.mapM f = .ok ys ↔ List.Forall₂ (fun x y => f x = .ok y) xs ys := by
  induction xs generalizing ys with
  | nil => cases ys <;> simp [pure, Except.pure]
  | cons x xs ih =>
    rw [List.mapM_cons]
    cases hx : f x with
    | error e => cases ys <;> simp [bind, Except.bind, hx]
    | ok y =>
      cases hxs : xs.mapM f with
      | error e => cases ys <;> simp [bind, Except.bind, ← ih, hxs]
      | ok ys' => cases ys <;> simp [bind, Except.bind, pure, Except.pure, ← ih, hxs, hx]

/-- Partners of all members make a list of partners. -/
theorem exists_forall₂ {α β : Type} {R : α → β → Prop} {xs : List α} (h : ∀ x ∈ xs, ∃ y, R x y) :
    ∃ ys, List.Forall₂ R xs ys := by
  induction xs with
  | nil => exact ⟨[], .nil⟩
  | cons x xs ih =>
    obtain ⟨hx, hxs⟩ := List.forall_mem_cons.mp h
    obtain ⟨y, hy⟩ := hx
    obtain ⟨ys, hys⟩ := ih hxs
    exact ⟨y :: ys, .cons hy hys⟩

namespace Vertex

@[simp] theorem reset_enter (v : Vertex) : v.enter.reset = v.reset := rfl

@[simp] theorem reset_leave (rank : Nat) (v : Vertex) : (v.leave rank).reset = v.reset := rfl

@[simp] theorem reset_reset (v : Vertex) : v.reset.reset = v.reset := rfl

end Vertex

namespace Graph

/-- The colour of a vertex. -/
def colorOf (g : Graph) (h : Handle) : Option Color := g.vertices[h]?.map Vertex.color

section Parts

variable {g g' : Graph} {part : Vertex → Vertex}

/-- Of vertices that are the same in part, what looks at this part only is the same. -/
theorem map_eq_of_part (h : ∀ i : Handle, g'.vertices[i]?.map part = g.vertices[i]?.map part) {α : Type}
    (f : Vertex → α) (hf : ∀ v : Vertex, f (part v) = f v) (i : Handle) :
    g'.vertices[i]?.map f = g.vertices[i]?.map f := by
  have hcomp : f = f ∘ part := funext fun v => (hf v).symm
  rw [hcomp, ← Option.map_map, ← Option.map_map, h]

theorem size_eq_of_part (h : ∀ i : Handle, g'.vertices[i]?.map part = g.vertices[i]?.map part) :
    g'.size = g.size := by
  have hlt : ∀ (g : Graph) (i : Handle), i < g.size ↔ (g.vertices[i]?.map part).isSome := by simp [size]
  exact eq_of_forall_lt_iff fun i => by rw [hlt, hlt, h]

end Parts

/-- The second graph differs from the first in colours and ranks only. -/
structure Recolored (g g' : Graph) : Prop where
  vertices : ∀ h : Handle, g'.vertices[h]?.map Vertex.reset = g.vertices[h]?.map Vertex.reset
  names : g'.names = g.names
  formulas : g'.formulas = g.formulas

namespace Recolored

variable {g g' g'' : Graph}

theorem refl (g : Graph) : g.Recolored g := ⟨fun _ => rfl, rfl, rfl⟩

theorem trans (h : g.Recolored g') (h' : g'.Recolored g'') : g.Recolored g'' :=
  ⟨fun i => (h'.vertices i).trans (h.vertices i), h'.names.trans h.names, h'.formulas.trans h.formulas⟩

/-- What does not look at colours and ranks is the same. -/
theorem map_eq (h : g.Recolored g') {α : Type} (f : Vertex → α) (hf : ∀ v : Vertex, f v.reset = f v)
    (i : Handle) : g'.vertices[i]?.map f = g.vertices[i]?.map f :=
  map_eq_of_part h.vertices f hf i

theorem size_eq (h : g.Recolored g') : g'.size = g.size := size_eq_of_part h.vertices

theorem lt_size_iff (h : g.Recolored g') (i : Handle) : i < g'.size ↔ i < g.size := by rw [h.size_eq]

theorem relatedOf (h : g.Recolored g') (i : Handle) : g'.relatedOf i = g.relatedOf i := by
  rw [Graph.relatedOf, h.map_eq Vertex.related (fun _ => rfl), Graph.relatedOf]

theorem nameOf? (h : g.Recolored g') (i : Handle) : g'.nameOf? i = g.nameOf? i :=
  h.map_eq Vertex.name (fun _ => rfl) i

end Recolored

theorem recolored_update (g : Graph) (h : Handle) {f : Vertex → Vertex}
    (hf : ∀ v : Vertex, (f v).reset = v.reset) : g.Recolored (g.update h f) := by
  refine ⟨?_, rfl, rfl⟩
  intro i
  rw [vertices_update]
  split
  · cases g.vertices[i]? <;> simp [hf]
  · rfl

/-! ## Marking one vertex -/

theorem colorOf_isSome_iff {g : Graph} {h : Handle} : (g.colorOf h).isSome ↔ h < g.size := by
  simp [colorOf, size]

theorem lt_size_of_colorOf {g : Graph} {h : Handle} {c : Color} (hc : g.colorOf h = some c) : h < g.size :=
  colorOf_isSome_iff.mp (by rw [hc]; rfl)

theorem relatedOf_eq {g : Graph} {h : Handle} {v : Vertex} (hv : g.vertices[h]? = some v) :
    g.relatedOf h = v.related := by
  simp [relatedOf, hv]

theorem colorOf_eq {g : Graph} {h : Handle} {v : Vertex} (hv : g.vertices[h]? = some v) :
    g.colorOf h = some v.color := by
  simp [colorOf, hv]

theorem colorOf_update {g : Graph} {h : Handle} (hlt : h < g.size) {f : Vertex → Vertex} {c : Color}
    (hf : ∀ v : Vertex, (f v).color = c) (i : Handle) :
    (g.update h f).colorOf i = if h = i then some c else g.colorOf i := by
  unfold colorOf
  rw [vertices_update]
  split
  · rename_i he
    obtain ⟨v, hv⟩ := exists_vertex hlt
    simp [← he, hv, hf]
  · rfl

theorem colorOf_enter {g : Graph} {h : Handle} (hlt : h < g.size) (i : Handle) :
    (g.update h Vertex.enter).colorOf i = if h = i then some .grey else g.colorOf i :=
  colorOf_update (f := Vertex.enter) hlt (fun _ => rfl) i

theorem colorOf_leave {g : Graph} {h : Handle} (hlt : h < g.size) (rank : Nat) (i : Handle) :
    (g.update h (Vertex.leave rank)).colorOf i = if h = i then some .black else g.colorOf i :=
  colorOf_update (f := Vertex.leave rank) hlt (fun _ => rfl) i

theorem rankOf_enter (g : Graph) (h i : Handle) : (g.update h Vertex.enter).rankOf i = g.rankOf i := by
  unfold rankOf
  rw [vertices_update]
  split
  · cases g.vertices[i]? <;> simp [Vertex.enter]
  · rfl

theorem rankOf_leave {g : Graph} {h : Handle} (hlt : h < g.size) (rank : Nat) (i : Handle) :
    (g.update h (Vertex.leave rank)).rankOf i = if h = i then (rank : Int) else g.rankOf i := by
  unfold rankOf
  rw [vertices_update]
  split
  · rename_i he
    obtain ⟨v, hv⟩ := exists_vertex hlt
    simp [← he, hv, Vertex.leave]
  · rfl

/-! ## Resetting -/

/-- Resetting vertices that are there succeeds and resets just these. -/
theorem resetAll_eq : ∀ {handles : List Handle} {g : Graph}, (∀ h ∈ handles, h < g.size) →
    ∃ g', g.resetAll handles = (g', .ok ()) ∧ g.Recolored g' ∧
      ∀ h : Handle, g'.vertices[h]? = if h ∈ handles then g.vertices[h]?.map Vertex.reset else g.vertices[h]?
  | [], g, _ => ⟨g, rfl, .refl g, by simp⟩
  | h :: handles, g, hlt => by
    obtain ⟨hh, hlt⟩ := List.forall_mem_cons.mp hlt
    obtain ⟨v, hv⟩ := get_isOk_iff.mpr hh
    have hmodify : g.modify h Vertex.reset = .ok (g.update h Vertex.reset) := by
      simp [modify, hv, bind, Except.bind]
    have hlt' : ∀ i ∈ handles, i < (g.update h Vertex.reset).size := by simpa using hlt
    obtain ⟨g', hreset, hsame, hvertices⟩ := resetAll_eq hlt'
    refine ⟨g', ?_, (recolored_update g h Vertex.reset_reset).trans hsame, ?_⟩
    · rw [resetAll, hmodify]
      exact hreset
    · intro i
      rw [hvertices, vertices_update]
      by_cases hi : h = i
      · subst hi
        cases g.vertices[h]? <;> simp
      · simp [hi, Ne.symm hi]

theorem colorOf_resetAll {g g' : Graph} {handles : List Handle}
    (hvertices : ∀ h : Handle, g'.vertices[h]? =
      if h ∈ handles then g.vertices[h]?.map Vertex.reset else g.vertices[h]?)
    (hlt : ∀ h ∈ handles, h < g.size) (h : Handle) :
    g'.colorOf h = if h ∈ handles then some .white else g.colorOf h := by
  unfold colorOf
  rw [hvertices]
  split
  · rename_i hh
    obtain ⟨v, hv⟩ := exists_vertex (hlt h hh)
    simp [hv, Vertex.reset]
  · rfl

theorem rankOf_resetAll {g g' : Graph} {handles : List Handle}
    (hvertices : ∀ h : Handle, g'.vertices[h]? =
      if h ∈ handles then g.vertices[h]?.map Vertex.reset else g.vertices[h]?) (h : Handle) :
    g'.rankOf h = if h ∈ handles then 0 else g.rankOf h := by
  unfold rankOf
  rw [hvertices]
  split
  · cases g.vertices[h]? <;> rfl
  · rfl

/-! ## Labels -/

theorem label_eq_ok_iff {g : Graph} {h : Handle} {l : String} :
    g.label h = .ok l ↔ g.nameOf? h = some l := by
  unfold label get nameOf?
  cases g.vertices[h]? <;> simp [bind, Except.bind, pure, Except.pure]

theorem labels_eq_ok_iff {g : Graph} {hs : List Handle} {ls : List String} :
    g.labels hs = .ok ls ↔ List.Forall₂ (fun h l => g.nameOf? h = some l) hs ls := by
  rw [labels, mapM_eq_ok_iff]
  simp only [label_eq_ok_iff]

theorem labels_eq_map {g : Graph} {hs : List Handle} {f : Handle → String}
    (h : ∀ i ∈ hs, g.nameOf? i = some (f i)) : g.labels hs = .ok (hs.map f) :=
  labels_eq_ok_iff.mpr (List.forall₂_map_right_iff.mpr (List.forall₂_same.mpr h))

/-- Vertices that are there have labels. -/
theorem exists_labels {g : Graph} {hs : List Handle} (h : ∀ i ∈ hs, i < g.size) :
    ∃ ls, g.labels hs = .ok ls := by
  simp only [labels_eq_ok_iff]
  refine exists_forall₂ ?_
  intro i hi
  obtain ⟨v, hv⟩ := exists_vertex (h i hi)
  exact ⟨v.name, by simp [nameOf?, hv]⟩

end Graph

end EvalOrder
