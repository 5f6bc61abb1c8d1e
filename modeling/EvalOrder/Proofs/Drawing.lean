import EvalOrder.Proofs.ExtraEdges

/-!
# Graphs from marks

A list of marks says what stands where in a graph: names and lines (`Mark`). A graph that is drawn from marks has a
vertex for each at its place, finds names where they are marked, and has its formulas where lines are marked (`draw`).
What its vertices hold is a parameter. The operations that enter a line come to drawing more marks.

Results:
* `find?_draw`: names are found where they are marked.
* `register_draw`, `registerAll_draw`, `registerGroups_draw`: registering names marks those that are new.
* `addEdges_draw`, `addFormula_draw`: edges and formulas.
* `MarkedOnce`: no name is marked twice.
-/

namespace EvalOrder

/-- What a vertex stands for. -/
inductive Mark where
  | name (x : String)
  | line (l : String)
  deriving DecidableEq, Repr

namespace Mark

/-- The name that is marked. -/
def name? : Mark → Option String
  | name x => some x
  | line _ => none

def isLine : Mark → Bool
  | name _ => false
  | line _ => true

end Mark

/-- Where a name is marked. -/
def place (marks : List Mark) (x : String) : Handle := marks.idxOf (.name x)

/-- Where lines are marked. -/
def linePlaces (marks : List Mark) : List Handle :=
  (List.range marks.length).filter fun h => marks[h]?.any Mark.isLine

/-- The graph that has a vertex for each mark. -/
def draw (marks : List Mark) (vertex : Handle → Mark → Vertex) : Graph where
  vertices := (marks.mapIdx vertex).toArray
  names := (marks.filterMap Mark.name?).map fun x => (x, place marks x)
  formulas := linePlaces marks

/-! ## Marks and their places -/

theorem place_append {marks : List Mark} {x : String} (hx : .name x ∈ marks) (more : List Mark) :
    place (marks ++ more) x = place marks x :=
  List.idxOf_append_of_mem hx

theorem place_addAll {marks : List Mark} {x : String} (hx : .name x ∈ marks) (more : List Mark) :
    place (addAll marks more) x = place marks x := by
  rw [addAll_eq_append_fresh, place_append hx]

/-- Names that are marked stay where they are. -/
theorem map_place_addAll {marks : List Mark} {xs : List String} (h : ∀ x ∈ xs, .name x ∈ marks) (more : List Mark) :
    xs.map (place (addAll marks more)) = xs.map (place marks) :=
  List.map_congr_left fun x hx => place_addAll (h x hx) more

theorem map_place_append {marks : List Mark} {xs : List String} (h : ∀ x ∈ xs, .name x ∈ marks) (more : List Mark) :
    xs.map (place (marks ++ more)) = xs.map (place marks) :=
  List.map_congr_left fun x hx => place_append (h x hx) more

/-- A new mark is behind those that are there. -/
theorem place_concat {marks : List Mark} {x : String} (hx : .name x ∉ marks) :
    place (marks ++ [.name x]) x = marks.length := by
  rw [place, List.idxOf_append_of_notMem hx, List.idxOf_cons_self, Nat.add_zero]

theorem mem_names {marks : List Mark} {x : String} : x ∈ marks.filterMap Mark.name? ↔ .name x ∈ marks := by
  rw [List.mem_filterMap]
  constructor
  · rintro ⟨m, hm, hname⟩
    cases m with
    | name y => exact Option.some.inj hname ▸ hm
    | line l => cases hname
  · intro hx
    exact ⟨_, hx, rfl⟩

theorem getElem?_place {marks : List Mark} {x : String} (hx : .name x ∈ marks) :
    marks[place marks x]? = some (.name x) :=
  List.getElem?_idxOf hx

/-- Different names are marked in different places. -/
theorem place_inj {marks : List Mark} {x y : String} (hx : .name x ∈ marks) :
    place marks x = place marks y ↔ x = y := by
  rw [place, place, List.idxOf_inj hx, Mark.name.injEq]

theorem linePlaces_concat (marks : List Mark) (m : Mark) :
    linePlaces (marks ++ [m]) = linePlaces marks ++ if m.isLine then [marks.length] else [] := by
  have hold : (List.range marks.length).filter (fun h => (marks ++ [m])[h]?.any Mark.isLine) = linePlaces marks := by
    refine List.filter_congr fun h hh => ?_
    rw [List.getElem?_append_left (List.mem_range.mp hh)]
  rw [linePlaces, List.length_append, List.length_singleton, List.range_succ, List.filter_append, hold]
  cases hm : m.isLine <;> simp [hm]

theorem mem_linePlaces {marks : List Mark} {h : Handle} :
    h ∈ linePlaces marks ↔ ∃ line, marks[h]? = some (.line line) := by
  rw [linePlaces, List.mem_filter, List.mem_range]
  constructor
  · rintro ⟨hlt, hline⟩
    rw [List.getElem?_eq_getElem hlt] at hline ⊢
    cases hm : marks[h] with
    | name x => simp [hm, Mark.isLine] at hline
    | line l => exact ⟨l, rfl⟩
  · rintro ⟨line, hline⟩
    exact ⟨(List.getElem?_eq_some_iff.mp hline).1, by simp [hline, Mark.isLine]⟩

/-- No name is marked twice. -/
def MarkedOnce (marks : List Mark) : Prop := ∀ h x, marks[h]? = some (.name x) → place marks x = h

theorem MarkedOnce.concat {marks : List Mark} (h : MarkedOnce marks) {m : Mark} (hm : ∀ x, m = .name x → m ∉ marks) :
    MarkedOnce (marks ++ [m]) := by
  intro i x hi
  by_cases hlt : i < marks.length
  · rw [List.getElem?_append_left hlt] at hi
    rw [place_append (List.mem_of_getElem? hi), h i x hi]
  · rw [List.getElem?_append_right (Nat.le_of_not_lt hlt), List.getElem?_singleton] at hi
    split at hi
    · rename_i hsize
      obtain rfl := Option.some.inj hi
      rw [place_concat (hm x rfl)]
      exact Nat.le_antisymm (Nat.le_of_not_lt hlt) (Nat.le_of_sub_eq_zero hsize)
    · cases hi

theorem MarkedOnce.addAll {marks : List Mark} (h : MarkedOnce marks) (xs : List String) :
    MarkedOnce (addAll marks (xs.map .name)) := by
  induction xs generalizing marks with
  | nil => exact h
  | cons x xs ih =>
    refine ih ?_
    unfold addNew
    split
    · exact h
    · rename_i hx
      exact h.concat fun y _ => hx

namespace Graph

variable {marks : List Mark} {vertex vertex' : Handle → Mark → Vertex}

/-! ## Drawn graphs -/

theorem vertices_draw (marks : List Mark) (vertex : Handle → Mark → Vertex) (h : Handle) :
    (draw marks vertex).vertices[h]? = marks[h]?.map (vertex h) := by
  rw [draw, List.getElem?_toArray, List.getElem?_mapIdx]

theorem size_draw (marks : List Mark) (vertex : Handle → Mark → Vertex) : (draw marks vertex).size = marks.length := by
  simp [size, draw]

/-- Only the vertices of marks matter. -/
theorem draw_congr (h : ∀ i m, marks[i]? = some m → vertex i m = vertex' i m) :
    draw marks vertex = draw marks vertex' := by
  refine eq_of_vertices (fun i => ?_) rfl rfl
  rw [vertices_draw, vertices_draw]
  cases hm : marks[i]? with
  | none => rfl
  | some m => rw [Option.map_some, Option.map_some, h i m hm]

theorem get?_map_place (marks : List Mark) (xs : List String) (x : String) :
    Table.get? (xs.map fun x => (x, place marks x)) x = if x ∈ xs then some (place marks x) else none := by
  induction xs with
  | nil => rfl
  | cons y xs ih =>
    rw [List.map_cons, Table.get?, ih]
    by_cases hy : y = x
    · simp [hy]
    · simp [hy, Ne.symm hy]

/-- Names are found where they are marked. -/
theorem find?_draw (marks : List Mark) (vertex : Handle → Mark → Vertex) (x : String) :
    (draw marks vertex).find? x = if .name x ∈ marks then some (place marks x) else none := by
  rw [find?, draw, get?_map_place]
  simp only [mem_names]

theorem map_place_names (marks more : List Mark) :
    (marks.filterMap Mark.name?).map (fun x => (x, place (marks ++ more) x)) =
      (marks.filterMap Mark.name?).map fun x => (x, place marks x) := by
  refine List.map_congr_left fun x hx => ?_
  rw [place_append (mem_names.mp hx)]

/-- A name more is a vertex more, which is found by it. -/
theorem draw_concat_name {x : String} (hx : .name x ∉ marks) (vertex : Handle → Mark → Vertex) :
    draw (marks ++ [.name x]) vertex =
      { draw marks vertex with
        vertices := (draw marks vertex).vertices.push (vertex marks.length (.name x))
        names := (draw marks vertex).names ++ [(x, marks.length)] } := by
  simp [draw, List.mapIdx_concat, linePlaces_concat, Mark.isLine, Mark.name?, map_place_names, place_concat hx]

/-- A line more is a vertex more, which is a formula. -/
theorem draw_concat_line (marks : List Mark) (line : String) (vertex : Handle → Mark → Vertex) :
    draw (marks ++ [.line line]) vertex =
      { draw marks vertex with
        vertices := (draw marks vertex).vertices.push (vertex marks.length (.line line))
        formulas := (draw marks vertex).formulas ++ [marks.length] } := by
  simp [draw, List.mapIdx_concat, linePlaces_concat, Mark.isLine, Mark.name?, map_place_names]

/-- The vertices of names that are not marked are blank. -/
def Blank (marks : List Mark) (vertex : Handle → Mark → Vertex) : Prop :=
  ∀ x, .name x ∉ marks → ∀ h, vertex h (.name x) = { handle := h, name := x }

theorem Blank.addAll (h : Blank marks vertex) (more : List Mark) : Blank (addAll marks more) vertex :=
  fun x hx => h x fun hmem => hx (mem_addAll.mpr (.inl hmem))

/-- Registering a name marks it. -/
theorem register_draw (h : Blank marks vertex) (x : String) :
    (draw marks vertex).register x =
      (place (addAll marks [.name x]) x, draw (addAll marks [.name x]) vertex) := by
  have hone : addAll marks [.name x] = addNew marks (.name x) := rfl
  unfold register
  rw [find?_draw, hone, size_draw]
  by_cases hx : .name x ∈ marks
  · rw [if_pos hx, addNew, if_pos hx]
  · rw [if_neg hx, addNew, if_neg hx, place_concat hx, draw_concat_name hx, h x hx]

theorem registerAll_draw (h : Blank marks vertex) (xs : List String) :
    (draw marks vertex).registerAll xs =
      (xs.map (place (addAll marks (xs.map .name))), draw (addAll marks (xs.map .name)) vertex) := by
  induction xs generalizing marks with
  | nil => rfl
  | cons x xs ih =>
    have hmarks : addAll marks ((x :: xs).map .name) = addAll (addAll marks [.name x]) (xs.map .name) := rfl
    have hx : .name x ∈ addAll marks [.name x] := by simp [mem_addAll]
    rw [hmarks, List.map_cons, place_addAll hx]
    simp only [registerAll, register_draw h, ih (h.addAll _)]

theorem registerGroups_draw (h : Blank marks vertex) (groups : List (List String)) :
    (draw marks vertex).registerGroups groups =
      (groups.map (List.map (place (addAll marks (groups.flatten.map .name)))),
        draw (addAll marks (groups.flatten.map .name)) vertex) := by
  induction groups generalizing marks with
  | nil => rfl
  | cons group groups ih =>
    have hmarks : addAll marks ((group :: groups).flatten.map .name) =
        addAll (addAll marks (group.map .name)) (groups.flatten.map .name) := by
      rw [List.flatten_cons, List.map_append, addAll_append]
    have hgroup : ∀ x ∈ group, .name x ∈ addAll marks (group.map .name) := by
      intro x hx
      exact mem_addAll.mpr (.inr (List.mem_map_of_mem hx))
    simp only [registerGroups, registerAll_draw h, ih (h.addAll _), hmarks, List.map_cons, map_place_addAll hgroup]

/-- Edges lengthen the lists of their sources. -/
theorem addEdges_draw (marks : List Mark) (vertex : Handle → Mark → Vertex) (edges : List (Handle × Handle)) :
    (draw marks vertex).addEdges edges = draw marks fun h m =>
      { vertex h m with related := (vertex h m).related ++ (edges.filter (·.1 = h)).map Prod.snd } := by
  obtain ⟨-, hnames, hformulas⟩ := addEdges_keeps edges (draw marks vertex)
  refine eq_of_vertices (fun h => ?_) hnames hformulas
  rw [vertices_addEdges, vertices_draw, vertices_draw, Option.map_map]
  rfl

/-- Adding the formula of a line marks the line. -/
theorem addFormula_draw {line label : String} {declared : List Handle} {calls : List (List Handle)}
    (h : vertex marks.length (.line line) =
      { handle := marks.length, name := label, declared, called := distinct calls.flatten }) :
    ((draw marks vertex).addFormula label declared calls).2 = draw (marks ++ [.line line]) vertex := by
  rw [addFormula_eq, draw_concat_line, h, formulaVertex, size_draw]

end Graph

end EvalOrder
