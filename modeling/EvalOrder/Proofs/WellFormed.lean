import EvalOrder.Graph.DependencyView
import EvalOrder.Graph.Link
import Mathlib.Data.List.Forall2

/-!
# Well-formed graphs

What holds of every graph that lines are entered into. A vertex is a name's or a formula's and never both;
only formulas declare and call, and what they declare and call are names; names are related to names and
formulas to other formulas; no name is declared by two formulas. Each operation is described by what it
changes: registering only adds vertices of names (`Extends`), edges only lengthen `related`, and a formula
is one vertex more.

Results:
* `Named.injective`: no two names share a handle.
* `extends_registerAll`, `extends_registerGroups`: registering finds the names at the handles it returns.
* `WellFormed.register`, `WellFormed.registerAll`, `WellFormed.registerGroups`: it keeps a graph well-formed.
* `vertices_addEdges`, `WellFormed.addEdges`: edges, and which of them may be added.
* `WellFormed.addFormula`: a formula may be added that declares names which no other declares.
* `Unsearched`: none of this colours a vertex.
-/

namespace EvalOrder

theorem Table.get?_append {κ ν : Type} [DecidableEq κ] (t u : Table κ ν) (key : κ) :
    get? (t ++ u) key = (get? t key).or (get? u key) := by
  induction t with
  | nil => simp [get?]
  | cons e t ih =>
    obtain ⟨k, v⟩ := e
    by_cases hk : k = key
    · simp [get?, hk]
    · simp [get?, hk, ih]

namespace Graph

/-- The handle is that of a name. -/
def IsName (g : Graph) (h : Handle) : Prop := ∃ x, g.find? x = some h

/-- What every graph satisfies that lines are entered into. -/
structure WellFormed (g : Graph) : Prop where
  /-- A vertex knows its place. -/
  handle_eq : ∀ {h : Handle} {v : Vertex}, g.vertices[h]? = some v → v.handle = h
  /-- The vertex of a name is called by it. -/
  name_eq : ∀ {x h}, g.find? x = some h → ∃ v, g.vertices[h]? = some v ∧ v.name = x
  covered : ∀ h < g.size, g.IsName h ∨ h ∈ g.formulas
  apart : ∀ h ∈ g.formulas, ¬ g.IsName h
  ascending : g.formulas.Pairwise (· < ·)
  inRange : ∀ h ∈ g.formulas, h < g.size
  /-- A name declares and calls nothing. -/
  ofName : ∀ {h : Handle} {v : Vertex}, g.IsName h → g.vertices[h]? = some v →
    v.declared = [] ∧ v.called = [] ∧ ∀ t ∈ v.related, g.IsName t
  /-- A formula declares some names and calls names, each once. -/
  ofFormula : ∀ {h : Handle} {v : Vertex}, h ∈ g.formulas → g.vertices[h]? = some v →
    (v.declared ≠ [] ∧ v.declared.Nodup ∧ ∀ t ∈ v.declared, g.IsName t) ∧
    (v.called.Nodup ∧ ∀ t ∈ v.called, g.IsName t) ∧ ∀ t ∈ v.related, t ∈ g.formulas ∧ t ≠ h
  ownedOnce : ∀ a ∈ g.formulas, ∀ b ∈ g.formulas, ∀ d ∈ g.declaredBy a, d ∈ g.declaredBy b → a = b

/-- Each name is found at a vertex that is called by it. This much holds of every graph, whoever made it. -/
def Named (g : Graph) : Prop := ∀ x h, g.find? x = some h → ∃ v, g.vertices[h]? = some v ∧ v.name = x

theorem WellFormed.named {g : Graph} (hg : g.WellFormed) : g.Named := fun _ _ hx => hg.name_eq hx

/-! ## Names and their handles -/

section Handles

variable {g : Graph} {xs : List String} {hs : List Handle}

theorem exists_handle (h : xs.map g.find? = hs.map some) {x : String} (hx : x ∈ xs) :
    ∃ i ∈ hs, g.find? x = some i := by
  obtain ⟨i, hi, hxi⟩ := List.mem_map.mp (h ▸ List.mem_map_of_mem hx)
  exact ⟨i, hi, hxi.symm⟩

theorem exists_name (h : xs.map g.find? = hs.map some) {i : Handle} (hi : i ∈ hs) :
    ∃ x ∈ xs, g.find? x = some i :=
  List.mem_map.mp (h ▸ List.mem_map_of_mem hi)

/-- The handles of names are those that the names are found at. -/
theorem mem_iff_exists_name (h : xs.map g.find? = hs.map some) {i : Handle} :
    i ∈ hs ↔ ∃ x ∈ xs, g.find? x = some i := by
  have hmem : i ∈ hs ↔ some i ∈ hs.map some := by simp
  rw [hmem, ← h, List.mem_map]

/-- Names that keep their handles are found at the same ones. -/
theorem map_find?_of_keeps {g' : Graph} (hkeeps : ∀ {x h}, g.find? x = some h → g'.find? x = some h)
    (h : xs.map g.find? = hs.map some) : xs.map g'.find? = hs.map some := by
  refine Eq.trans (List.map_congr_left ?_) h
  intro x hx
  obtain ⟨i, -, hi⟩ := exists_handle h hx
  rw [hi]
  exact hkeeps hi

end Handles

/-! ## Registering leaves everything in its place -/

/-- What registering names makes of a graph: everything is where it was. -/
structure Extends (g g' : Graph) : Prop where
  find? : ∀ {x h}, g.find? x = some h → g'.find? x = some h
  vertices : ∀ {h : Handle} {v : Vertex}, g.vertices[h]? = some v → g'.vertices[h]? = some v
  formulas : g'.formulas = g.formulas

theorem Extends.refl (g : Graph) : g.Extends g := ⟨id, id, rfl⟩

theorem Extends.trans {g g' g'' : Graph} (h : g.Extends g') (h' : g'.Extends g'') : g.Extends g'' :=
  ⟨h'.find? ∘ h.find?, h'.vertices ∘ h.vertices, h'.formulas.trans h.formulas⟩

theorem Extends.isName {g g' : Graph} (h : g.Extends g') {t : Handle} (ht : g.IsName t) : g'.IsName t :=
  ht.imp fun _ hx => h.find? hx

theorem Extends.map_find? {g g' : Graph} (h : g.Extends g') {xs : List String} {hs : List Handle}
    (hx : xs.map g.find? = hs.map some) : xs.map g'.find? = hs.map some :=
  map_find?_of_keeps h.find? hx

theorem wellFormed_empty : WellFormed {} where
  handle_eq h := by simp at h
  name_eq h := by simp [Graph.find?, Table.get?] at h
  covered h hlt := absurd hlt (Nat.not_lt_zero h)
  apart _ h := absurd h List.not_mem_nil
  ascending := .nil
  inRange _ h := absurd h List.not_mem_nil
  ofName h := by
    obtain ⟨x, hx⟩ := h
    simp [Graph.find?, Table.get?] at hx
  ofFormula h := absurd h List.not_mem_nil
  ownedOnce _ h := absurd h List.not_mem_nil

namespace Named

variable {g : Graph}

theorem find?_lt (hg : g.Named) {x : String} {h : Handle} (hx : g.find? x = some h) : h < g.size := by
  obtain ⟨v, hv, -⟩ := hg x h hx
  exact lt_size hv

theorem isName_lt (hg : g.Named) {h : Handle} (hn : g.IsName h) : h < g.size :=
  hn.elim fun _ hx => hg.find?_lt hx

/-- No two names share a handle. -/
theorem injective (hg : g.Named) {x y : String} {h : Handle} (hx : g.find? x = some h)
    (hy : g.find? y = some h) : x = y := by
  obtain ⟨v, hv, rfl⟩ := hg x h hx
  obtain ⟨w, hw, rfl⟩ := hg y h hy
  rw [hv] at hw
  rw [Option.some.inj hw]

end Named

namespace WellFormed

variable {g : Graph}

theorem isName_lt (hg : g.WellFormed) {h : Handle} (hn : g.IsName h) : h < g.size := hg.named.isName_lt hn

theorem injective (hg : g.WellFormed) {x y : String} {h : Handle} (hx : g.find? x = some h)
    (hy : g.find? y = some h) : x = y :=
  hg.named.injective hx hy

end WellFormed

theorem mem_declaredBy {g : Graph} {f d : Handle} :
    d ∈ g.declaredBy f ↔ ∃ v, g.vertices[f]? = some v ∧ d ∈ v.declared := by
  unfold declaredBy
  cases g.vertices[f]? <;> simp

/-- What formulas declare stays what it was. -/
theorem Extends.declaredBy {g g' : Graph} (h : g.Extends g') {f : Handle} (hf : f < g.size) :
    g'.declaredBy f = g.declaredBy f := by
  obtain ⟨v, hv⟩ := exists_vertex hf
  simp [Graph.declaredBy, hv, h.vertices hv]

/-! ## Registering -/

theorem find?_register (g : Graph) (x y : String) :
    (g.register x).2.find? y = if x = y then some (g.register x).1 else g.find? y := by
  unfold register
  cases hx : g.find? x with
  | some h =>
    by_cases hxy : x = y
    · subst hxy
      simpa using hx
    · simp [hxy]
  | none =>
    have hadd : Graph.find? { g with
        vertices := g.vertices.push { handle := g.size, name := x }
        names := g.names ++ [(x, g.size)] } y = (g.find? y).or (if x = y then some g.size else none) := by
      simp [Graph.find?, Table.get?_append, Table.get?]
    rw [hadd]
    by_cases hxy : x = y
    · subst hxy
      simp [hx]
    · simp [hxy]

/-- Registering a name leaves everything in its place. -/
theorem extends_register (g : Graph) (x : String) : g.Extends (g.register x).2 := by
  constructor
  case find? =>
    intro y h hy
    rw [find?_register]
    by_cases hxy : x = y
    · subst hxy
      simp [register, hy]
    · rw [if_neg hxy, hy]
  case vertices =>
    intro h v hv
    have hlt : h < g.vertices.size := lt_size hv
    unfold register
    cases g.find? x with
    | some _ => exact hv
    | none =>
      rw [Array.getElem?_push, if_neg (Nat.ne_of_lt hlt)]
      exact hv
  case formulas =>
    unfold register
    cases g.find? x <;> rfl

/-- The only new vertex is that of the name. -/
theorem vertices_register (g : Graph) (x : String) {h : Handle} {v : Vertex}
    (hv : (g.register x).2.vertices[h]? = some v) :
    g.vertices[h]? = some v ∨
      g.find? x = none ∧ h = g.size ∧ (g.register x).1 = h ∧ v = { handle := h, name := x } := by
  unfold register at hv ⊢
  cases hx : g.find? x with
  | some _ =>
    rw [hx] at hv
    exact .inl hv
  | none =>
    simp only [hx, Array.getElem?_push] at hv
    split at hv
    · rename_i hsize
      subst hsize
      exact .inr ⟨rfl, rfl, rfl, (Option.some.inj hv).symm⟩
    · exact .inl hv

theorem isName_register (g : Graph) (x : String) {h : Handle} :
    (g.register x).2.IsName h ↔ g.IsName h ∨ h = (g.register x).1 := by
  constructor
  · rintro ⟨y, hy⟩
    rw [find?_register] at hy
    by_cases hxy : x = y
    · rw [if_pos hxy] at hy
      exact .inr (Option.some.inj hy).symm
    · rw [if_neg hxy] at hy
      exact .inl ⟨y, hy⟩
  · rintro (hn | rfl)
    · exact (extends_register g x).isName hn
    · exact ⟨x, register_mem g x⟩

theorem declaredBy_register {g : Graph} (hg : g.WellFormed) (x : String) {f d : Handle}
    (hf : f ∈ g.formulas) (hd : d ∈ (g.register x).2.declaredBy f) : d ∈ g.declaredBy f := by
  obtain ⟨v, hv, hdv⟩ := mem_declaredBy.mp hd
  rcases vertices_register g x hv with hv | ⟨-, rfl, -, -⟩
  · exact mem_declaredBy.mpr ⟨v, hv, hdv⟩
  · exact absurd (hg.inRange _ hf) (Nat.lt_irrefl _)

/-- The vertex of the name is called by it. -/
theorem Named.register {g : Graph} (hg : g.Named) (x : String) : (g.register x).2.Named := by
  have hext := extends_register g x
  intro y h hy
  rw [find?_register] at hy
  by_cases hxy : x = y
  · subst hxy
    rw [if_pos rfl] at hy
    obtain rfl := Option.some.inj hy
    cases hx : g.find? x with
    | some h =>
      obtain ⟨v, hv, hname⟩ := hg x h hx
      exact ⟨v, hext.vertices (by simpa [Graph.register, hx] using hv), hname⟩
    | none => simp [Graph.register, hx, size]
  · rw [if_neg hxy] at hy
    obtain ⟨v, hv, hname⟩ := hg y h hy
    exact ⟨v, hext.vertices hv, hname⟩

theorem Named.registerAll (names : List String) {g : Graph} (hg : g.Named) : (g.registerAll names).2.Named := by
  induction names generalizing g with
  | nil => exact hg
  | cons x names ih => exact ih (hg.register x)

theorem Named.registerGroups (groups : List (List String)) {g : Graph} (hg : g.Named) :
    (g.registerGroups groups).2.Named := by
  induction groups generalizing g with
  | nil => exact hg
  | cons group groups ih => exact ih (hg.registerAll group)

/-- Registering names leaves everything in its place and finds the names at the handles it returns. -/
theorem extends_registerAll : ∀ (names : List String) (g : Graph),
    g.Extends (g.registerAll names).2 ∧ names.map (g.registerAll names).2.find? = (g.registerAll names).1.map some
  | [], g => ⟨Extends.refl g, rfl⟩
  | x :: names, g => by
    obtain ⟨hext, hfind⟩ := extends_registerAll names (g.register x).2
    refine ⟨(extends_register g x).trans hext, ?_⟩
    rw [List.map_cons, Graph.registerAll, List.map_cons, hfind, hext.find? (register_mem g x)]

theorem extends_registerGroups : ∀ (groups : List (List String)) (g : Graph),
    g.Extends (g.registerGroups groups).2 ∧
      List.Forall₂ (fun ns hs => ns.map (g.registerGroups groups).2.find? = hs.map some)
        groups (g.registerGroups groups).1
  | [], g => ⟨Extends.refl g, .nil⟩
  | group :: groups, g => by
    obtain ⟨hext, hfind⟩ := extends_registerAll group g
    obtain ⟨hext', hfind'⟩ := extends_registerGroups groups (g.registerAll group).2
    exact ⟨hext.trans hext', .cons (hext'.map_find? hfind) hfind'⟩

namespace WellFormed

variable {g : Graph}

/-- Registering a name keeps a graph well-formed. -/
theorem register (hg : g.WellFormed) (x : String) : (g.register x).2.WellFormed := by
  have hext := extends_register g x
  constructor
  case handle_eq =>
    intro h v hv
    rcases vertices_register g x hv with hv | ⟨-, -, -, rfl⟩
    · exact hg.handle_eq hv
    · rfl
  case name_eq =>
    intro y h hy
    exact hg.named.register x y h hy
  case covered =>
    intro h hlt
    rw [isName_register, hext.formulas]
    obtain ⟨v, hv⟩ := exists_vertex hlt
    rcases vertices_register g x hv with hv | ⟨-, -, rfl, -⟩
    · exact (hg.covered h (lt_size hv)).imp .inl id
    · exact .inl (.inr rfl)
  case apart =>
    intro h hf hn
    rw [hext.formulas] at hf
    rcases (isName_register g x).mp hn with hn | rfl
    · exact hg.apart h hf hn
    · have hlt := hg.inRange _ hf
      cases hx : g.find? x with
      | some h => exact hg.apart h (by simpa [Graph.register, hx] using hf) ⟨x, hx⟩
      | none => simp [Graph.register, hx] at hlt
  case ascending =>
    exact hext.formulas ▸ hg.ascending
  case inRange =>
    intro h hf
    rw [hext.formulas] at hf
    rw [size_register]
    have hlt := hg.inRange h hf
    split
    · exact hlt
    · exact Nat.lt_succ_of_lt hlt
  case ofName =>
    intro h v hn hv
    rcases vertices_register g x hv with hv | ⟨-, -, -, rfl⟩
    · have hold : g.IsName h := by
        rcases (isName_register g x).mp hn with hn | rfl
        · exact hn
        · cases hx : g.find? x with
          | some h => exact ⟨x, by simp [Graph.register, hx]⟩
          | none => simp [Graph.register, hx, size] at hv
      obtain ⟨hd, hc, hr⟩ := hg.ofName hold hv
      exact ⟨hd, hc, fun t ht => hext.isName (hr t ht)⟩
    · exact ⟨rfl, rfl, fun t ht => absurd ht List.not_mem_nil⟩
  case ofFormula =>
    intro h v hf hv
    rw [hext.formulas] at hf
    rcases vertices_register g x hv with hv | ⟨-, rfl, -, -⟩
    · obtain ⟨⟨hne, hnd, hd⟩, ⟨hcn, hc⟩, hr⟩ := hg.ofFormula hf hv
      exact ⟨⟨hne, hnd, fun t ht => hext.isName (hd t ht)⟩, ⟨hcn, fun t ht => hext.isName (hc t ht)⟩,
        hext.formulas.symm ▸ hr⟩
    · exact absurd (hg.inRange _ hf) (Nat.lt_irrefl _)
  case ownedOnce =>
    intro a ha b hb d hda hdb
    rw [hext.formulas] at ha hb
    exact hg.ownedOnce a ha b hb d (declaredBy_register hg x ha hda) (declaredBy_register hg x hb hdb)

/-- So does registering names. -/
theorem registerAll (names : List String) {g : Graph} (hg : g.WellFormed) :
    (g.registerAll names).2.WellFormed := by
  induction names generalizing g with
  | nil => exact hg
  | cons x names ih => exact ih (hg.register x)

theorem registerGroups (groups : List (List String)) {g : Graph} (hg : g.WellFormed) :
    (g.registerGroups groups).2.WellFormed := by
  induction groups generalizing g with
  | nil => exact hg
  | cons group groups ih => exact ih (hg.registerAll group)

end WellFormed

/-! ## Edges -/

theorem addRelated_eq {g : Graph} {a : Handle} (h : a < g.size) (b : Handle) :
    g.addRelated a b = .ok (g.update a (·.addRelated b)) := by
  obtain ⟨v, hv⟩ := get_isOk_iff.mpr h
  simp [addRelated, modify, hv, bind, Except.bind]

/-- Edges lengthen the list of their source and change nothing else. -/
theorem vertices_addEdges : ∀ (edges : List (Handle × Handle)) (g : Graph) (h : Handle),
    (g.addEdges edges).vertices[h]? = g.vertices[h]?.map fun v =>
      { v with related := v.related ++ (edges.filter (·.1 = h)).map Prod.snd }
  | [], g, h => by simp [addEdges]
  | e :: edges, g, h => by
    have hstep : g.addEdges (e :: edges) = (g.update e.1 (·.addRelated e.2)).addEdges edges := rfl
    rw [hstep, vertices_addEdges, vertices_update]
    by_cases he : e.1 = h
    · subst he
      cases g.vertices[e.1]? <;> simp [Vertex.addRelated]
    · simp [he]

theorem find?_addEdges (g : Graph) (edges : List (Handle × Handle)) (x : String) :
    (g.addEdges edges).find? x = g.find? x := by
  rw [find?, (addEdges_keeps edges g).2.1, find?]

theorem relatedOf_addEdges {g : Graph} {h : Handle} (hlt : h < g.size) (edges : List (Handle × Handle)) :
    (g.addEdges edges).relatedOf h = g.relatedOf h ++ (edges.filter (·.1 = h)).map Prod.snd := by
  obtain ⟨v, hv⟩ := exists_vertex hlt
  simp [relatedOf, vertices_addEdges, hv]

theorem declaredBy_addEdges (g : Graph) (edges : List (Handle × Handle)) (h : Handle) :
    (g.addEdges edges).declaredBy h = g.declaredBy h := by
  unfold declaredBy
  rw [vertices_addEdges]
  cases g.vertices[h]? <;> simp

theorem isName_addEdges (g : Graph) (edges : List (Handle × Handle)) (h : Handle) :
    (g.addEdges edges).IsName h ↔ g.IsName h := by
  unfold IsName
  simp only [find?_addEdges]

theorem mem_targets {edges : List (Handle × Handle)} {h t : Handle} :
    t ∈ (edges.filter (·.1 = h)).map Prod.snd ↔ (h, t) ∈ edges := by
  simp

theorem Named.addEdges {g : Graph} (hg : g.Named) (edges : List (Handle × Handle)) : (g.addEdges edges).Named := by
  intro x i hx
  obtain ⟨w, hw, hname⟩ := hg x i ((find?_addEdges g edges x).symm.trans hx)
  refine ⟨{ w with related := w.related ++ (edges.filter (·.1 = i)).map Prod.snd }, ?_, hname⟩
  rw [vertices_addEdges, hw, Option.map_some]

/-- Names may be related to names, and formulas to other formulas. -/
def MayRelate (g : Graph) (a b : Handle) : Prop :=
  (g.IsName a ∧ g.IsName b) ∨ (a ∈ g.formulas ∧ b ∈ g.formulas ∧ b ≠ a)

/-- Such edges keep a graph well-formed. -/
theorem WellFormed.addEdges {g : Graph} (hg : g.WellFormed) {edges : List (Handle × Handle)}
    (h : ∀ e ∈ edges, g.MayRelate e.1 e.2) : (g.addEdges edges).WellFormed := by
  obtain ⟨hsize, hnames, hformulas⟩ := addEdges_keeps edges g
  have hfrom : ∀ {i : Handle} {v : Vertex}, (g.addEdges edges).vertices[i]? = some v →
      ∃ w, g.vertices[i]? = some w ∧
        v = { w with related := w.related ++ (edges.filter (·.1 = i)).map Prod.snd } := by
    intro i v hv
    rw [vertices_addEdges] at hv
    obtain ⟨w, hw, rfl⟩ := Option.map_eq_some_iff.mp hv
    exact ⟨w, hw, rfl⟩
  constructor
  case handle_eq =>
    intro i v hv
    obtain ⟨w, hw, rfl⟩ := hfrom hv
    have hplace : w.handle = i := hg.handle_eq hw
    exact hplace
  case name_eq =>
    intro x i hx
    exact hg.named.addEdges edges x i hx
  case covered =>
    intro i hi
    rw [isName_addEdges, hformulas]
    exact hg.covered i (hsize ▸ hi)
  case apart =>
    intro i hi
    rw [isName_addEdges]
    exact hg.apart i (hformulas ▸ hi)
  case ascending =>
    exact hformulas ▸ hg.ascending
  case inRange =>
    rw [hformulas, hsize]
    exact hg.inRange
  case ofName =>
    intro i v hn hv
    rw [isName_addEdges] at hn
    obtain ⟨w, hw, rfl⟩ := hfrom hv
    obtain ⟨hd, hc, hr⟩ := hg.ofName hn hw
    refine ⟨hd, hc, fun t ht => (isName_addEdges g edges t).mpr ?_⟩
    rcases List.mem_append.mp ht with ht | ht
    · exact hr t ht
    · rcases h _ (mem_targets.mp ht) with ⟨-, hb⟩ | ⟨ha, -, -⟩
      · exact hb
      · exact absurd hn (hg.apart _ ha)
  case ofFormula =>
    intro i v hi hv
    rw [hformulas] at hi
    obtain ⟨w, hw, rfl⟩ := hfrom hv
    obtain ⟨⟨hne, hnd, hd⟩, ⟨hcn, hc⟩, hr⟩ := hg.ofFormula hi hw
    refine ⟨⟨hne, hnd, fun t ht => (isName_addEdges g edges t).mpr (hd t ht)⟩,
      ⟨hcn, fun t ht => (isName_addEdges g edges t).mpr (hc t ht)⟩, ?_⟩
    intro t ht
    rw [hformulas]
    rcases List.mem_append.mp ht with ht | ht
    · exact hr t ht
    · rcases h _ (mem_targets.mp ht) with ⟨ha, -⟩ | ⟨-, hb⟩
      · exact absurd ha (hg.apart _ hi)
      · exact hb
  case ownedOnce =>
    intro a ha b hb d hda hdb
    rw [hformulas] at ha hb
    rw [declaredBy_addEdges] at hda hdb
    exact hg.ownedOnce a ha b hb d hda hdb

/-! ## A new formula -/

theorem called_foldl_addCalled (groups : List (List Handle)) (v : Vertex) :
    groups.foldl Vertex.addCalled v = { v with called := addAll v.called groups.flatten } := by
  induction groups generalizing v with
  | nil => rfl
  | cons group groups ih =>
    rw [List.foldl_cons, ih, List.flatten_cons]
    simp [Vertex.addCalled, addAll, List.foldl_append]

/-- The vertex of a formula. -/
def formulaVertex (g : Graph) (label : String) (declared : List Handle) (calls : List (List Handle)) :
    Vertex :=
  { handle := g.size, name := label, declared, called := distinct calls.flatten }

theorem addFormula_eq (g : Graph) (label : String) (declared : List Handle) (calls : List (List Handle)) :
    (g.addFormula label declared calls).2 = { g with
      vertices := g.vertices.push (g.formulaVertex label declared calls)
      formulas := g.formulas ++ [g.size] } := by
  rw [addFormula, called_foldl_addCalled]
  rfl

theorem find?_addFormula (g : Graph) (label : String) (declared : List Handle)
    (calls : List (List Handle)) (x : String) :
    (g.addFormula label declared calls).2.find? x = g.find? x := rfl

theorem vertices_addFormula (g : Graph) (label : String) (declared : List Handle)
    (calls : List (List Handle)) (h : Handle) :
    (g.addFormula label declared calls).2.vertices[h]? =
      if h = g.size then some (g.formulaVertex label declared calls) else g.vertices[h]? := by
  rw [addFormula_eq, Array.getElem?_push]
  rfl

theorem Named.addFormula {g : Graph} (hg : g.Named) (label : String) (declared : List Handle)
    (calls : List (List Handle)) : (g.addFormula label declared calls).2.Named := by
  intro x h hx
  rw [find?_addFormula] at hx
  obtain ⟨v, hv, hname⟩ := hg x h hx
  exact ⟨v, by rwa [vertices_addFormula, if_neg (Nat.ne_of_lt (hg.find?_lt hx))], hname⟩

/-- A formula may be added that declares names which no other formula declares, and calls names. -/
theorem WellFormed.addFormula {g : Graph} (hg : g.WellFormed) {label : String} {declared : List Handle}
    {calls : List (List Handle)} (hne : declared ≠ []) (hnodup : declared.Nodup)
    (hdeclared : ∀ d ∈ declared, g.IsName d) (hcalls : ∀ group ∈ calls, ∀ c ∈ group, g.IsName c)
    (hfree : ∀ f ∈ g.formulas, ∀ d ∈ g.declaredBy f, d ∉ declared) :
    (g.addFormula label declared calls).2.WellFormed := by
  have hsize := size_addFormula g label declared calls
  have hvertices := vertices_addFormula g label declared calls
  have hformulas : (g.addFormula label declared calls).2.formulas = g.formulas ++ [g.size] := rfl
  have hfind := find?_addFormula g label declared calls
  have hnamed := hg.named.addFormula label declared calls
  generalize (g.addFormula label declared calls).2 = g' at hsize hvertices hformulas hfind hnamed
  have hname : ∀ h, g'.IsName h ↔ g.IsName h := fun h => by simp only [IsName, hfind]
  have hmem : ∀ h, h ∈ g'.formulas ↔ h ∈ g.formulas ∨ h = g.size := by simp [hformulas]
  -- the formula is the last vertex, and those before it are where they were
  have hold : ∀ {h : Handle} {v : Vertex}, h < g.size → g'.vertices[h]? = some v →
      g.vertices[h]? = some v := by
    intro h v hlt hv
    rwa [hvertices, if_neg (Nat.ne_of_lt hlt)] at hv
  have hnew : ∀ {v : Vertex}, g'.vertices[g.size]? = some v →
      v = g.formulaVertex label declared calls := by
    intro v hv
    rw [hvertices, if_pos rfl] at hv
    exact (Option.some.inj hv).symm
  have hlater : ∀ f ∈ g.formulas, ∀ d ∈ g'.declaredBy f, d ∈ g.declaredBy f := by
    intro f hf d hd
    obtain ⟨v, hv, hdv⟩ := mem_declaredBy.mp hd
    exact mem_declaredBy.mpr ⟨v, hold (hg.inRange f hf) hv, hdv⟩
  have hown : ∀ d ∈ g'.declaredBy g.size, d ∈ declared := by
    intro d hd
    obtain ⟨v, hv, hdv⟩ := mem_declaredBy.mp hd
    obtain rfl := hnew hv
    exact hdv
  constructor
  case handle_eq =>
    intro h v hv
    rw [hvertices] at hv
    split at hv
    · rename_i h
      rw [h, ← Option.some.inj hv]
      rfl
    · exact hg.handle_eq hv
  case name_eq =>
    intro x h hx
    exact hnamed x h hx
  case covered =>
    intro h hlt
    rw [hname, hmem]
    rcases Nat.lt_or_eq_of_le (Nat.le_of_lt_succ (hsize ▸ hlt)) with hlt | heq
    · exact (hg.covered h hlt).imp id .inl
    · exact .inr (.inr heq)
  case apart =>
    intro h hf hn
    rw [hname] at hn
    rcases (hmem h).mp hf with hf | rfl
    · exact hg.apart h hf hn
    · exact absurd (hg.isName_lt hn) (Nat.lt_irrefl _)
  case ascending =>
    rw [hformulas]
    exact List.pairwise_append.mpr ⟨hg.ascending, List.pairwise_singleton _ _,
      fun a ha b hb => List.mem_singleton.mp hb ▸ hg.inRange a ha⟩
  case inRange =>
    intro h hf
    rw [hsize]
    rcases (hmem h).mp hf with hf | rfl
    · exact Nat.lt_succ_of_lt (hg.inRange h hf)
    · exact Nat.lt_succ_self _
  case ofName =>
    intro h v hn hv
    rw [hname] at hn
    obtain ⟨hd, hc, hr⟩ := hg.ofName hn (hold (hg.isName_lt hn) hv)
    exact ⟨hd, hc, fun t ht => (hname t).mpr (hr t ht)⟩
  case ofFormula =>
    intro h v hf hv
    rcases (hmem h).mp hf with hf | rfl
    · obtain ⟨⟨hne, hnd, hd⟩, ⟨hcn, hc⟩, hr⟩ := hg.ofFormula hf (hold (hg.inRange h hf) hv)
      exact ⟨⟨hne, hnd, fun t ht => (hname t).mpr (hd t ht)⟩, ⟨hcn, fun t ht => (hname t).mpr (hc t ht)⟩,
        fun t ht => ⟨(hmem t).mpr (.inl (hr t ht).1), (hr t ht).2⟩⟩
    · obtain rfl := hnew hv
      refine ⟨⟨hne, hnodup, fun t ht => (hname t).mpr (hdeclared t ht)⟩, ⟨nodup_distinct _, ?_⟩,
        fun t ht => absurd ht List.not_mem_nil⟩
      intro t ht
      obtain ⟨group, hgroup, htg⟩ := List.mem_flatten.mp (mem_distinct.mp ht)
      exact (hname t).mpr (hcalls group hgroup t htg)
  case ownedOnce =>
    intro a ha b hb d hda hdb
    rcases (hmem a).mp ha with ha | rfl <;> rcases (hmem b).mp hb with hb | rfl
    · exact hg.ownedOnce a ha b hb d (hlater a ha d hda) (hlater b hb d hdb)
    · exact absurd (hown d hdb) (hfree a ha d (hlater a ha d hda))
    · exact absurd (hown d hda) (hfree b hb d (hlater b hb d hdb))
    · rfl

/-! ## Before any search -/

/-- No search has come to any vertex. -/
def Unsearched (g : Graph) : Prop := ∀ (h : Handle) (v : Vertex), g.vertices[h]? = some v → v.color = .white

namespace Unsearched

variable {g : Graph}

theorem register (hg : g.Unsearched) (x : String) : (g.register x).2.Unsearched := by
  intro h v hv
  rcases vertices_register g x hv with hv | ⟨-, -, -, rfl⟩
  · exact hg h v hv
  · rfl

theorem registerAll (hg : g.Unsearched) (names : List String) : (g.registerAll names).2.Unsearched := by
  induction names generalizing g with
  | nil => exact hg
  | cons x names ih => exact ih (hg.register x)

theorem registerGroups (hg : g.Unsearched) (groups : List (List String)) :
    (g.registerGroups groups).2.Unsearched := by
  induction groups generalizing g with
  | nil => exact hg
  | cons group groups ih => exact ih (hg.registerAll group)

theorem addEdges (hg : g.Unsearched) (edges : List (Handle × Handle)) : (g.addEdges edges).Unsearched := by
  intro h v hv
  rw [vertices_addEdges] at hv
  obtain ⟨w, hw, rfl⟩ := Option.map_eq_some_iff.mp hv
  exact hg h w hw

theorem addFormula (hg : g.Unsearched) (label : String) (declared : List Handle)
    (calls : List (List Handle)) : (g.addFormula label declared calls).2.Unsearched := by
  intro h v hv
  rw [vertices_addFormula] at hv
  split at hv
  · obtain rfl := Option.some.inj hv
    rfl
  · exact hg h v hv

end Unsearched

end Graph

end EvalOrder
