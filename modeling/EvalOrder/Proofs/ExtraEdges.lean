import EvalOrder.Proofs.Joining
import EvalOrder.Proofs.Linking

/-!
# Lines and links

A session may have linked its formulas before more lines are entered. The links do not matter to the lines: names
are found and registered as before, the names of a line are related beside the links, and its formula is one vertex
more. So a session with links does what it does without them, and keeps the links.

Results:
* `addEdges_comm`: edges from different vertices may be added in either order.
* `register_addEdges`, `addFormula_addEdges`, `relateCalls_addEdges`: the operations of a line, with links.
* **`enter_addEdges`**, `enterAll_addEdges`: a line, and lines.
* `read_addEdges`: a text.
-/

namespace EvalOrder

namespace Graph

variable {g : Graph} {edges : List (Handle × Handle)}

/-- A graph is its vertices, names and formulas. -/
theorem eq_of_vertices {g g' : Graph} (hvertices : ∀ h : Handle, g.vertices[h]? = g'.vertices[h]?)
    (hnames : g.names = g'.names) (hformulas : g.formulas = g'.formulas) : g = g' := by
  obtain ⟨vertices, names, formulas⟩ := g
  obtain ⟨vertices', names', formulas'⟩ := g'
  obtain rfl : names = names' := hnames
  obtain rfl : formulas = formulas' := hformulas
  obtain rfl : vertices = vertices' := Array.ext_getElem? hvertices
  rfl

theorem addEdges_append (g : Graph) (edges more : List (Handle × Handle)) :
    g.addEdges (edges ++ more) = (g.addEdges edges).addEdges more :=
  List.foldl_append

/-- Edges from different vertices may be added in either order. -/
theorem addEdges_comm (g : Graph) {edges more : List (Handle × Handle)}
    (h : ∀ e ∈ edges, ∀ p ∈ more, e.1 ≠ p.1) :
    (g.addEdges edges).addEdges more = (g.addEdges more).addEdges edges := by
  obtain ⟨-, hnames, hformulas⟩ := addEdges_keeps more (g.addEdges edges)
  obtain ⟨-, hnames', hformulas'⟩ := addEdges_keeps edges (g.addEdges more)
  refine eq_of_vertices ?_ ?_ ?_
  · intro i
    rw [vertices_addEdges, vertices_addEdges, vertices_addEdges, vertices_addEdges]
    -- edges of one sort only start at a vertex
    have hone : edges.filter (·.1 = i) = [] ∨ more.filter (·.1 = i) = [] := by
      by_cases hnone : ∃ p ∈ more, p.1 = i
      · obtain ⟨p, hp, rfl⟩ := hnone
        exact .inl (List.filter_eq_nil_iff.mpr fun e he => by simpa using h e he p hp)
      · exact .inr (List.filter_eq_nil_iff.mpr fun p hp => by simpa using fun hpi => hnone ⟨p, hp, hpi⟩)
    rcases hone with hone | hone <;> cases g.vertices[i]? <;> simp [hone]
  · rw [hnames, (addEdges_keeps edges g).2.1, hnames', (addEdges_keeps more g).2.1]
  · rw [hformulas, (addEdges_keeps edges g).2.2, hformulas', (addEdges_keeps more g).2.2]

/-- Edges do not reach a new vertex. -/
theorem addEdges_push (g : Graph) (h : ∀ e ∈ edges, e.1 < g.size) (v : Vertex) (names : Table String Handle)
    (formulas : List Handle) :
    Graph.addEdges ⟨g.vertices.push v, names, formulas⟩ edges =
      ⟨(g.addEdges edges).vertices.push v, names, formulas⟩ := by
  have hkeeps := addEdges_keeps edges ⟨g.vertices.push v, names, formulas⟩
  refine eq_of_vertices ?_ hkeeps.2.1 hkeeps.2.2
  intro i
  rw [vertices_addEdges, Array.getElem?_push, Array.getElem?_push, vertices_addEdges,
    show (g.addEdges edges).vertices.size = g.vertices.size from (addEdges_keeps edges g).1]
  by_cases hi : i = g.vertices.size
  · have hnone : edges.filter (·.1 = i) = [] :=
      List.filter_eq_nil_iff.mpr fun e he => by simpa using fun hei => Nat.ne_of_lt (h e he) (hei.trans hi)
    rw [if_pos hi, if_pos hi, hnone]
    simp
  · rw [if_neg hi, if_neg hi]

/-! ## Registering names -/

theorem register_addEdges (h : ∀ e ∈ edges, e.1 < g.size) (x : String) :
    (g.addEdges edges).register x = ((g.register x).1, (g.register x).2.addEdges edges) := by
  obtain ⟨hsize, hnames, hformulas⟩ := addEdges_keeps edges g
  unfold register
  rw [find?_addEdges]
  cases g.find? x with
  | some i => rfl
  | none =>
    simp only [hsize, hnames, hformulas]
    rw [addEdges_push g h]

theorem size_le_register (g : Graph) (x : String) : g.size ≤ (g.register x).2.size := by
  rw [size_register]
  split
  · exact Nat.le_refl _
  · exact Nat.le_succ _

theorem size_le_registerAll (names : List String) (g : Graph) : g.size ≤ (g.registerAll names).2.size := by
  induction names generalizing g with
  | nil => exact Nat.le_refl _
  | cons x names ih => exact Nat.le_trans (g.size_le_register x) (ih _)

theorem registerAll_addEdges (h : ∀ e ∈ edges, e.1 < g.size) (names : List String) :
    (g.addEdges edges).registerAll names = ((g.registerAll names).1, (g.registerAll names).2.addEdges edges) := by
  induction names generalizing g with
  | nil => rfl
  | cons x names ih =>
    have hnext := ih fun e he => Nat.lt_of_lt_of_le (h e he) (g.size_le_register x)
    simp only [registerAll, register_addEdges h, hnext]

theorem registerGroups_addEdges (h : ∀ e ∈ edges, e.1 < g.size) (groups : List (List String)) :
    (g.addEdges edges).registerGroups groups =
      ((g.registerGroups groups).1, (g.registerGroups groups).2.addEdges edges) := by
  induction groups generalizing g with
  | nil => rfl
  | cons group groups ih =>
    have hnext := ih fun e he => Nat.lt_of_lt_of_le (h e he) (g.size_le_registerAll group)
    simp only [registerGroups, registerAll_addEdges h, hnext]

/-! ## Relating names, and formulas -/

theorem addFormula_addEdges (h : ∀ e ∈ edges, e.1 < g.size) (label : String) (declared : List Handle)
    (calls : List (List Handle)) :
    ((g.addEdges edges).addFormula label declared calls).2 = (g.addFormula label declared calls).2.addEdges edges := by
  obtain ⟨hsize, hnames, hformulas⟩ := addEdges_keeps edges g
  rw [addFormula_eq, addFormula_eq, addEdges_push g h, formulaVertex, hsize, hnames, hformulas]
  rfl

theorem label_addEdges (g : Graph) (edges : List (Handle × Handle)) (i : Handle) :
    (g.addEdges edges).label i = g.label i := by
  unfold label get
  rw [vertices_addEdges]
  cases g.vertices[i]? <;> rfl

theorem addRelated_addEdges {a : Handle} (h : ∀ e ∈ edges, e.1 ≠ a) (b : Handle) :
    (g.addEdges edges).addRelated a b = (g.addRelated a b).map (·.addEdges edges) := by
  by_cases ha : a < g.size
  · have hcomm : (g.addEdges edges).addEdges [(a, b)] = (g.addEdges [(a, b)]).addEdges edges :=
      addEdges_comm g (by simpa using h)
    rw [addRelated_eq ha, addRelated_eq (by rwa [(addEdges_keeps edges g).1])]
    exact congrArg Except.ok hcomm
  · have hnone : g.vertices[a]? = none := Array.getElem?_eq_none (Nat.le_of_not_lt ha)
    simp [addRelated, modify, get, vertices_addEdges, hnone, bind, Except.bind, Except.map]

theorem relateCalls_addEdges {declared : List Handle} {pairs : List (Handle × Handle)}
    (h : ∀ e ∈ edges, ∀ p ∈ pairs, e.1 ≠ p.1) :
    (g.addEdges edges).relateCalls declared pairs =
      ((g.relateCalls declared pairs).1.addEdges edges, (g.relateCalls declared pairs).2) := by
  induction pairs generalizing g with
  | nil => rfl
  | cons p pairs ih =>
    obtain ⟨name, call⟩ := p
    have hfirst : ∀ e ∈ edges, e.1 ≠ name := fun e he => h e he _ List.mem_cons_self
    have hrest : ∀ e ∈ edges, ∀ p ∈ pairs, e.1 ≠ p.1 := fun e he p hp => h e he p (List.mem_cons_of_mem _ hp)
    rw [relateCalls, relateCalls, addRelated_addEdges hfirst]
    cases g.addRelated name call with
    | error e => rfl
    | ok g' =>
      simp only [Except.map, label_addEdges, ih hrest]
      split
      · cases g'.label name with
        | error e => rfl
        | ok n =>
          cases g'.label call with
          | error e => rfl
          | ok c => rfl
      · rfl

theorem size_relateCalls (g : Graph) (declared : List Handle) (pairs : List (Handle × Handle)) :
    (g.relateCalls declared pairs).1.size = g.size := by
  induction pairs generalizing g with
  | nil => rfl
  | cons p pairs ih =>
    obtain ⟨name, call⟩ := p
    rw [relateCalls]
    by_cases hname : name < g.size
    · rw [addRelated_eq hname]
      simp only
      split
      · split <;> simp
      · rw [ih, size_update]
    · have hnone : g.vertices[name]? = none := Array.getElem?_eq_none (Nat.le_of_not_lt hname)
      simp [addRelated, modify, get, hnone, bind, Except.bind]

/-! ## Links -/

theorem calledBy_addEdges (g : Graph) (edges : List (Handle × Handle)) (h : Handle) :
    (g.addEdges edges).calledBy h = g.calledBy h := by
  unfold calledBy
  rw [vertices_addEdges]
  cases g.vertices[h]? <;> simp

/-- Edges do not change what the formulas depend on. -/
theorem linkEdges_addEdges (g : Graph) (edges : List (Handle × Handle)) :
    (g.addEdges edges).linkEdges = g.linkEdges := by
  unfold linkEdges targets calledOwners notAfter owners
  simp only [declaredBy_addEdges, calledBy_addEdges, (addEdges_keeps edges g).2.2]

end Graph

/-- The session with edges added to its graph. -/
def Session.addEdges (s : Session) (edges : List (Handle × Handle)) : Session :=
  { s with graph := s.graph.addEdges edges }

/-- The entry with edges added to the graph of its session. -/
def Entry.addEdges (entry : Entry) (edges : List (Handle × Handle)) : Entry :=
  { entry with session := entry.session.addEdges edges }

namespace Session

open EvalOrder.Graph

@[simp] theorem graph_addEdges (s : Session) (edges : List (Handle × Handle)) :
    (s.addEdges edges).graph = s.graph.addEdges edges := rfl

variable {s : Session} {edges : List (Handle × Handle)}

theorem note_addEdges (h : ∀ e ∈ edges, e.1 < s.graph.size) (r : Reading) :
    (s.addEdges edges).note r = ((s.note r).1, (s.note r).2.1, (s.note r).2.2.addEdges edges) := by
  have hgroups := registerGroups_addEdges
    (fun e he => Nat.lt_of_lt_of_le (h e he) (s.graph.size_le_registerAll r.names)) r.expressions
  simp only [note, graph_addEdges, registerAll_addEdges h, hgroups]
  rfl

/-- **A line does what it does, beside the links.** -/
theorem enter_addEdges (hs : s.WellFormed) (h : ∀ e ∈ edges, e.1 ∈ s.graph.formulas) (c : Cursor) :
    (s.addEdges edges).enter c = (s.enter c).addEdges edges := by
  obtain ⟨hwf, hext, -⟩ := noted_spec hs.graph c
  have hformulas : ∀ e ∈ edges, e.1 ∈ (s.noted c).graph.formulas := fun e he => hext.formulas.symm ▸ h e he
  have hlt : ∀ e ∈ edges, e.1 < (s.noted c).graph.size := fun e he => hwf.inRange _ (hformulas e he)
  have hnote := note_addEdges (fun e he => hs.graph.inRange _ (h e he)) (s.reading c)
  have hnoted : (s.addEdges edges).noted c = (s.noted c).addEdges edges := congrArg (·.2.2) hnote
  have hdeclaring : (s.addEdges edges).declaring c = s.declaring c := congrArg (·.1) hnote
  have hcalling : (s.addEdges edges).calling c = s.calling c := congrArg (·.2.1) hnote
  have hreading : (s.addEdges edges).reading c = s.reading c := rfl
  -- the names of the line have edges of their own
  have hapart : ∀ e ∈ edges, ∀ p ∈ callPairs (s.declaring c) (s.calling c), e.1 ≠ p.1 := fun e he p hp hep =>
    hwf.apart _ (hformulas e he) (hep ▸ (isName_of_callPairs hs.graph.named c hp).1)
  cases hhead : (Lexed.ofCursor c).head with
  | error e =>
    simp only [enter, hhead]
    rfl
  | ok first =>
    rw [enter_of_head _ hhead, enter_of_head _ hhead, hnoted, hdeclaring, hcalling, hreading, graph_addEdges,
      relateCalls_addEdges hapart]
    have hsize := (s.noted c).graph.size_relateCalls (s.declaring c) (callPairs (s.declaring c) (s.calling c))
    cases (s.reading c).outcome with
    | error e => rfl
    | ok finish =>
      simp only
      split
      · rfl
      · generalize (s.noted c).graph.relateCalls (s.declaring c) (callPairs (s.declaring c) (s.calling c)) =
          result at hsize
        obtain ⟨g, outcome⟩ := result
        cases outcome with
        | error e => rfl
        | ok u =>
          have hlt' : ∀ e ∈ edges, e.1 < g.size := fun e he => Nat.lt_of_lt_of_eq (hlt e he) hsize.symm
          simp only [addFormula_addEdges hlt']
          rfl

/-- Formulas are only added. -/
theorem formulas_subset_enter (hs : s.WellFormed) (c : Cursor) :
    s.graph.formulas ⊆ (s.enter c).session.graph.formulas := by
  obtain ⟨-, hext, -⟩ := noted_spec hs.graph c
  have hway := way_enter hs.graph.named c
  generalize s.enter c = entry at hway
  intro f hf
  have hnoted : f ∈ (s.noted c).graph.formulas := hext.formulas.symm ▸ hf
  cases hway with
  | noToken _ => exact hf
  | unread _ _ => exact hnoted
  | unmatched _ _ _ => exact hnoted
  | circular _ _ _ _ _ _ _ _ => exact (addEdges_keeps _ _).2.2.symm ▸ hnoted
  | formula _ _ _ _ => exact List.mem_append_left _ ((addEdges_keeps _ _).2.2.symm ▸ hnoted)

theorem enterAll_addEdges (hs : s.WellFormed) (h : ∀ e ∈ edges, e.1 ∈ s.graph.formulas) (cs : List Cursor) :
    (s.addEdges edges).enterAll cs =
      ((s.enterAll cs).1.addEdges edges, (s.enterAll cs).2.1, (s.enterAll cs).2.2) := by
  induction cs generalizing s with
  | nil => rfl
  | cons c cs ih =>
    have hnext := ih (hs.enter c) fun e he => formulas_subset_enter hs c (h e he)
    rw [enterAll, enterAll, enter_addEdges hs h]
    simp only [Entry.addEdges]
    cases (s.enter c).outcome with
    | error e => rfl
    | ok u => simp only [hnext]

/-! ## Texts -/

theorem graph_link_addEdges (g : Graph) (edges : List (Handle × Handle)) :
    (g.addEdges edges).link = g.addEdges (edges ++ g.linkEdges) := by
  rw [Graph.link, linkEdges_addEdges, addEdges_append]

/-- **A text does what it does, beside the links**: if it is read, its own links are added to them. -/
theorem read_addEdges (hs : s.WellFormed) (h : ∀ e ∈ edges, e.1 ∈ s.graph.formulas) (text : String) :
    (s.addEdges edges).read text =
      { s.read text with session := (s.enterText text).1.addEdges (edges ++ (s.read text).edges) } := by
  have hlines : (s.addEdges edges).enterText text = ((s.enterText text).1.addEdges edges, (s.enterText text).2) :=
    enterAll_addEdges hs h _
  have hundefined : ((s.enterText text).1.addEdges edges).undefined = (s.enterText text).1.undefined := rfl
  cases hout : (s.enterText text).2.2 with
  | error e =>
    rw [read_of_error hout, read_of_error (by rw [hlines, hout]), hlines]
    simp
  | ok u =>
    by_cases hnil : (s.enterText text).1.undefined = []
    · rw [read_of_linked hout hnil, read_of_linked (by rw [hlines, hout]) (by rw [hlines, hundefined, hnil]), hlines]
      simp only [graph_addEdges, graph_link_addEdges, linkEdges_addEdges]
      rfl
    · rw [read_of_undefined hout hnil, read_of_undefined (by rw [hlines, hout]) (by rwa [hlines, hundefined]),
        hlines, hundefined]
      simp

end Session

end EvalOrder
