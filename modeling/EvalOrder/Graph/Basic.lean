import EvalOrder.Failure
import EvalOrder.Distinct
import EvalOrder.Table

/-!
# Formula graphs

Model of `Vertex` and of `FormulaGraph`: `register`, `add_related`, `add_formula` and `labels`, and the text that shows
a graph (`summary`).

A formula graph holds two sorts of vertex. The vertex of a name stands for an identifier and is found by it; the vertex
of a formula stands for a line of declarations, is labelled with its text, and is listed in the order of the lines. All
vertices live in one arena and refer to each other by handle, which is a vertex's place in the arena. Names are
registered when first mentioned; nothing is ever removed.

A handle that is none of the graph's is a fault. Left out are negative handles, which count from the end of the arena:
no operation makes one.

Results:
* `register_mem`: registering a name finds it from then on.
* `size_register`, `size_addFormula`: how the arena grows.
-/

namespace EvalOrder

/-- A vertex's place in the arena. -/
abbrev Handle := Nat

/-- How far a search has come with a vertex: not entered, entered, left. -/
inductive Color where
  | white
  | grey
  | black
  deriving DecidableEq, Repr

namespace Color

def name : Color → String
  | white => "white"
  | grey => "grey"
  | black => "black"

/-- The colour of a name. -/
def ofName (s : String) : Except Failure Color :=
  match [white, grey, black].find? (·.name = s) with
  | some c => .ok c
  | none => .error (.fault (.unknownColor s))

end Color

/-- A vertex of a formula graph. -/
structure Vertex where
  handle : Handle
  /-- The identifier, or the label of a formula. -/
  name : String
  /-- The names that the formula declares, in order. -/
  declared : List Handle := []
  /-- The names that the formula calls, each once. -/
  called : List Handle := []
  /-- The vertices that this one depends on, in the order they were added. -/
  related : List Handle := []
  color : Color := .white
  /-- The place in the order in which a search left the vertices, from 1. -/
  exitRank : Int := 0
  deriving DecidableEq, Repr

namespace Vertex

/-- Only a formula declares names. -/
def isFormula (v : Vertex) : Bool := !v.declared.isEmpty

def addRelated (v : Vertex) (target : Handle) : Vertex :=
  { v with related := v.related ++ [target] }

/-- Note the called names of a group, each once. -/
def addCalled (v : Vertex) (group : List Handle) : Vertex :=
  { v with called := addAll v.called group }

end Vertex

/-- An arena of vertices, the names among them in the order they were registered, and the formulas in the
order they were declared. -/
structure Graph where
  vertices : Array Vertex := #[]
  names : Table String Handle := []
  formulas : List Handle := []
  deriving DecidableEq, Repr

namespace Graph

def size (g : Graph) : Nat := g.vertices.size

/-- The handle of a name. -/
def find? (g : Graph) (name : String) : Option Handle := g.names.get? name

/-- The vertex of a handle. -/
def get (g : Graph) (h : Handle) : Except Failure Vertex :=
  match g.vertices[h]? with
  | some v => .ok v
  | none => .error (.fault .handle)

/-- Change the vertex of a handle; without one, nothing. -/
def update (g : Graph) (h : Handle) (f : Vertex → Vertex) : Graph :=
  { g with vertices := g.vertices.modify h f }

/-- Change the vertex of a handle that must have one. -/
def modify (g : Graph) (h : Handle) (f : Vertex → Vertex) : Except Failure Graph := do
  let _ ← g.get h
  .ok (g.update h f)

/-- The handle of a name, which is registered if it is new. -/
def register (g : Graph) (name : String) : Handle × Graph :=
  match g.find? name with
  | some h => (h, g)
  | none =>
    (g.size, { g with
      vertices := g.vertices.push { handle := g.size, name }
      names := g.names ++ [(name, g.size)] })

/-- Register names in order. -/
def registerAll (g : Graph) : List String → List Handle × Graph
  | [] => ([], g)
  | name :: more =>
    let (h, g) := g.register name
    let (hs, g) := g.registerAll more
    (h :: hs, g)

/-- Register groups of names in order. -/
def registerGroups (g : Graph) : List (List String) → List (List Handle) × Graph
  | [] => ([], g)
  | group :: more =>
    let (hs, g) := g.registerAll group
    let (hss, g) := g.registerGroups more
    (hs :: hss, g)

/-- Add an edge: `source` depends on `target`. -/
def addRelated (g : Graph) (source target : Handle) : Except Failure Graph :=
  g.modify source (·.addRelated target)

/-- Add the formula of a line, with the names it declares and a group of called names for each of its
expressions. -/
def addFormula (g : Graph) (label : String) (declared : List Handle) (calls : List (List Handle)) :
    Handle × Graph :=
  let formula := calls.foldl Vertex.addCalled { handle := g.size, name := label, declared }
  (g.size, { g with
    vertices := g.vertices.push formula
    formulas := g.formulas ++ [g.size] })

/-- The name or label of a handle that must be there. -/
def label (g : Graph) (h : Handle) : Except Failure String := return (← g.get h).name

/-- The names or labels of vertices. -/
def labels (g : Graph) (handles : List Handle) : Except Failure (List String) :=
  handles.mapM g.label

/-- The graph in two counts. -/
def summary (g : Graph) : String :=
  s!"<FormulaGraph vertices={g.size} formulas={g.formulas.length}>"

/-! ## What the operations change -/

theorem get_eq_ok_iff {g : Graph} {h : Handle} {v : Vertex} :
    g.get h = .ok v ↔ g.vertices[h]? = some v := by
  unfold get
  cases g.vertices[h]? <;> simp

theorem get_isOk_iff {g : Graph} {h : Handle} : (∃ v, g.get h = .ok v) ↔ h < g.size := by
  simp only [get_eq_ok_iff, size, Array.getElem?_eq_some_iff]
  exact ⟨fun ⟨_, hlt, _⟩ => hlt, fun hlt => ⟨_, hlt, rfl⟩⟩

theorem exists_vertex {g : Graph} {h : Handle} (hlt : h < g.size) : ∃ v, g.vertices[h]? = some v :=
  ⟨g.vertices[h], Array.getElem?_eq_getElem hlt⟩

theorem lt_size {g : Graph} {h : Handle} {v : Vertex} (hv : g.vertices[h]? = some v) : h < g.size :=
  (Array.getElem?_eq_some_iff.mp hv).1

@[simp] theorem size_update (g : Graph) (h : Handle) (f : Vertex → Vertex) :
    (g.update h f).size = g.size := by
  simp [update, size]

theorem vertices_update (g : Graph) (h i : Handle) (f : Vertex → Vertex) :
    (g.update h f).vertices[i]? = if h = i then g.vertices[i]?.map f else g.vertices[i]? := by
  simp [update, Array.getElem?_modify]

theorem size_register (g : Graph) (name : String) :
    (g.register name).2.size = if (g.find? name).isSome then g.size else g.size + 1 := by
  unfold register
  cases g.find? name <;> simp [size]

/-- Registering a name finds it from then on. -/
theorem register_mem (g : Graph) (name : String) :
    (g.register name).2.find? name = some (g.register name).1 := by
  unfold register
  cases hf : g.find? name with
  | some h => exact hf
  | none =>
    exact Table.get?_append_of_none hf

theorem size_addFormula (g : Graph) (label : String) (declared : List Handle)
    (calls : List (List Handle)) : (g.addFormula label declared calls).2.size = g.size + 1 := by
  simp [addFormula, size]

end Graph

end EvalOrder
