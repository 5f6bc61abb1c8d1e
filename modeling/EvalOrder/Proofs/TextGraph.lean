import EvalOrder.Proofs.Intake
import EvalOrder.Proofs.Linking

/-!
# The graph of a text

An accepted text has a graph whose formulas are its lines in order, and whose edges say which line calls a
name that which line declares (`Renders`). So questions about the text are questions about the graph: its
circles are those of the lines.

Results:
* `renders_readFormulas`: an accepted text and its graph.
* `Renders.edge_iff`: the edges are the calls.
* `Renders.circle_iff`: some formula depends on itself exactly if some line does.
* **`order_cyclic_iff`**: ordering fails exactly on circles of lines, and reports one.
-/

namespace EvalOrder

/-- The first line calls a name that the second declares; both are lines of the text. -/
def LineCalls (text : String) (a b : String) : Prop :=
  a ∈ textLines text ∧ b ∈ textLines text ∧ ∃ x ∈ calledNames a, x ∈ declaredNames b

namespace Graph

/-- The graph is that of the text: its formulas are the lines, linked by their calls. -/
structure Renders (g : Graph) (text : String) : Prop where
  wellFormed : g.WellFormed
  linked : g.Linked
  shows : List.Forall₂ (fun f line => ∃ v, g.Shows f line v) g.formulas (textLines text)
  edges : ∀ a ∈ g.formulas, ∀ b, g.Edge a b ↔
    b ∈ g.formulas ∧ b ≠ a ∧ ∃ d ∈ g.calledBy a, d ∈ g.declaredBy b
  declares : ∀ line ∈ textLines text, declaredNames line ≠ []
  once : ((textLines text).flatMap declaredNames).Nodup
  apart : ∀ line ∈ textLines text, ∀ x ∈ calledNames line, x ∉ declaredNames line
  complete : ∀ line ∈ textLines text, ∀ x ∈ calledNames line,
    ∃ other ∈ textLines text, x ∈ declaredNames other

namespace Shows

variable {g : Graph} {f : Handle} {line : String} {v : Vertex}

theorem link (h : g.Shows f line v) : ∃ v', g.link.Shows f line v' := by
  let related := v.related ++ (g.linkEdges.filter (·.1 = f)).map Prod.snd
  refine ⟨{ v with related }, ?_, h.name, ?_, ?_⟩
  · rw [Graph.link, vertices_addEdges, h.vertex, Option.map_some]
  · exact (List.map_congr_left fun x _ => find?_addEdges g _ x).trans h.declared
  · exact (List.map_congr_left fun x _ => find?_addEdges g _ x).trans h.called

theorem nameOf? (h : g.Shows f line v) : g.nameOf? f = some (unindented line) := by
  rw [Graph.nameOf?, h.vertex, Option.map_some, h.name]

theorem mem_declaredBy (h : g.Shows f line v) {d : Handle} :
    d ∈ g.declaredBy f ↔ ∃ x ∈ declaredNames line, g.find? x = some d := by
  rw [declaredBy, h.vertex, Option.map_some, Option.getD_some, mem_iff_exists_name h.declared]

theorem mem_calledBy (h : g.Shows f line v) {d : Handle} :
    d ∈ g.calledBy f ↔ ∃ x ∈ calledNames line, g.find? x = some d := by
  rw [calledBy, h.vertex, Option.map_some, Option.getD_some, mem_iff_exists_name h.called]
  simp only [mem_distinct]

/-- The names of a line have handles. -/
theorem exists_find? (h : g.Shows f line v) {x : String} (hx : x ∈ declaredNames line) :
    ∃ d, g.find? x = some d := by
  obtain ⟨d, -, hd⟩ := Graph.exists_handle h.declared hx
  exact ⟨d, hd⟩

end Shows

/-- **An accepted text has a graph of its lines.** -/
theorem renders_readFormulas {text : String} {g : Graph} (h : readFormulas text = .ok g) :
    g.Renders text := by
  obtain ⟨haccepts, hcomplete, rfl⟩ := readFormulas_eq_ok_iff.mp h
  obtain ⟨hdeclares, ⟨honce, -⟩, hapart⟩ := acceptsAll_iff.mp haccepts
  have hholds := holds_afterLines ((afterLines_outcome_iff text).mpr haccepts)
  generalize (afterLines text).1 = s at hholds
  have hwf := hholds.wellFormed.graph
  have hkeeps := addEdges_keeps s.graph.linkEdges s.graph
  have hformulas : s.graph.link.formulas = s.graph.formulas := hkeeps.2.2
  have hunlinked : ∀ f ∈ s.graph.formulas, ∀ b, ¬ s.graph.Edge f b := by
    intro f hf b hb
    obtain ⟨line, -, v, hshows, hrelated⟩ := exists_of_mem_right hholds.formulas.flip hf
    rw [Edge, relatedOf_eq hshows.vertex, hrelated] at hb
    exact absurd hb List.not_mem_nil
  have hcalled : ∀ a, s.graph.link.calledBy a = s.graph.calledBy a := by
    intro a
    rw [calledBy, Graph.link, vertices_addEdges, calledBy]
    cases s.graph.vertices[a]? <;> simp
  constructor
  case wellFormed =>
    exact hwf.link
  case linked =>
    exact hwf.link.linked (hholds.wellFormed.unsearched.addEdges _)
  case shows =>
    rw [hformulas]
    refine hholds.formulas.imp ?_
    rintro f line ⟨v, hshows, -⟩
    exact hshows.link
  case edges =>
    intro a ha b
    rw [hformulas] at ha ⊢
    rw [edge_link_iff hwf, hcalled, Graph.link, declaredBy_addEdges]
    exact ⟨fun hab => (hab.resolve_left (hunlinked a ha b)).2, fun hab => .inr ⟨ha, hab⟩⟩
  case declares =>
    intro line hline
    obtain ⟨names, sums, hdecl, -⟩ := hdeclares line hline
    exact hdecl.declaredNames_eq ▸ hdecl.names_ne_nil
  case once =>
    exact honce
  case apart =>
    exact hapart
  case complete =>
    exact undeclared_eq_nil_iff.mp hcomplete

namespace Renders

variable {g : Graph} {text : String}

theorem exists_line (h : g.Renders text) {f : Handle} (hf : f ∈ g.formulas) :
    ∃ line ∈ textLines text, ∃ v, g.Shows f line v :=
  exists_of_mem_right h.shows.flip hf

theorem exists_formula (h : g.Renders text) {line : String} (hl : line ∈ textLines text) :
    ∃ f ∈ g.formulas, ∃ v, g.Shows f line v :=
  exists_of_mem_right h.shows hl

/-- Formulas whose lines share a declared name are the same. -/
theorem formula_unique (h : g.Renders text) {a b : Handle} (ha : a ∈ g.formulas) (hb : b ∈ g.formulas)
    {line line' : String} {v w : Vertex} (hva : g.Shows a line v) (hwb : g.Shows b line' w) {x : String}
    (hx : x ∈ declaredNames line) (hx' : x ∈ declaredNames line') : a = b := by
  obtain ⟨d, hd⟩ := hva.exists_find? hx
  exact h.wellFormed.ownedOnce a ha b hb d (hva.mem_declaredBy.mpr ⟨x, hx, hd⟩)
    (hwb.mem_declaredBy.mpr ⟨x, hx', hd⟩)

/-- No two formulas have one label. -/
theorem label_unique (h : g.Renders text) {a b : Handle} (ha : a ∈ g.formulas) (hb : b ∈ g.formulas)
    (hname : g.nameOf? a = g.nameOf? b) : a = b := by
  obtain ⟨line, hline, v, hv⟩ := h.exists_line ha
  obtain ⟨line', -, w, hw⟩ := h.exists_line hb
  rw [hv.nameOf?, hw.nameOf?] at hname
  obtain ⟨x, hx⟩ := List.exists_mem_of_ne_nil _ (h.declares line hline)
  -- a label declares what its line does, so the two lines share a name
  have hx' : x ∈ declaredNames line' := by
    rw [← declaredNames_unindented line', ← Option.some.inj hname, declaredNames_unindented]
    exact hx
  exact h.formula_unique ha hb hv hw hx hx'

/-- **The edges are the calls.** -/
theorem edge_iff (h : g.Renders text) {a b : Handle} (ha : a ∈ g.formulas) (hb : b ∈ g.formulas)
    {line line' : String} {v w : Vertex} (hv : g.Shows a line v) (hw : g.Shows b line' w)
    (hline : line ∈ textLines text) (hline' : line' ∈ textLines text) :
    g.Edge a b ↔ LineCalls text line line' := by
  have hnames : (∃ d ∈ g.calledBy a, d ∈ g.declaredBy b) ↔
      ∃ x ∈ calledNames line, x ∈ declaredNames line' := by
    simp only [hv.mem_calledBy, hw.mem_declaredBy]
    constructor
    · rintro ⟨d, ⟨x, hx, hxd⟩, y, hy, hyd⟩
      exact ⟨x, hx, h.wellFormed.injective hxd hyd ▸ hy⟩
    · rintro ⟨x, hx, hx'⟩
      obtain ⟨d, hd⟩ := hw.exists_find? hx'
      exact ⟨d, ⟨x, hx, hd⟩, x, hx', hd⟩
  rw [h.edges a ha, hnames]
  constructor
  · rintro ⟨-, -, hcalls⟩
    exact ⟨hline, hline', hcalls⟩
  · rintro ⟨-, -, x, hx, hx'⟩
    refine ⟨hb, ?_, x, hx, hx'⟩
    intro he
    subst he
    obtain ⟨d, hd⟩ := hw.exists_find? hx'
    obtain ⟨y, hy, hyd⟩ := hv.mem_declaredBy.mp (hw.mem_declaredBy.mpr ⟨x, hx', hd⟩)
    exact h.apart line hline x hx (h.wellFormed.injective hd hyd ▸ hy)

/-- Following edges is following calls. -/
theorem transGen_calls (h : g.Renders text) {a b : Handle} (hab : Relation.TransGen g.Edge a b)
    (ha : a ∈ g.formulas) {line line' : String} {v w : Vertex} (hv : g.Shows a line v)
    (hline : line ∈ textLines text) (hw : g.Shows b line' w) (hline' : line' ∈ textLines text) :
    Relation.TransGen (LineCalls text) line line' := by
  induction hab generalizing line' w with
  | single hab => exact .single ((h.edge_iff ha (h.linked.inner a ha _ hab) hv hw hline hline').mp hab)
  | tail hab hbc ih =>
    have hb := h.linked.reached hab.to_reflTransGen ha
    obtain ⟨mid, hmid, u, hu⟩ := h.exists_line hb
    exact (ih hu hmid).tail ((h.edge_iff hb (h.linked.inner _ hb _ hbc) hu hw hmid hline').mp hbc)

/-- Following calls is following edges. -/
theorem transGen_edges (h : g.Renders text) {line line' : String}
    (hcalls : Relation.TransGen (LineCalls text) line line') {a : Handle} (ha : a ∈ g.formulas) {v : Vertex}
    (hv : g.Shows a line v) :
    ∃ b ∈ g.formulas, (∃ w, g.Shows b line' w) ∧ Relation.TransGen g.Edge a b := by
  induction hcalls with
  | single hcall =>
    obtain ⟨b, hb, w, hw⟩ := h.exists_formula hcall.2.1
    exact ⟨b, hb, ⟨w, hw⟩, .single ((h.edge_iff ha hb hv hw hcall.1 hcall.2.1).mpr hcall)⟩
  | tail _ hcall ih =>
    obtain ⟨b, hb, ⟨w, hw⟩, hab⟩ := ih
    obtain ⟨c, hc, u, hu⟩ := h.exists_formula hcall.2.1
    exact ⟨c, hc, ⟨u, hu⟩, hab.tail ((h.edge_iff hb hc hw hu hcall.1 hcall.2.1).mpr hcall)⟩

/-- **The circles of the graph are those of the lines.** -/
theorem circle_iff (h : g.Renders text) :
    (∃ f ∈ g.formulas, Relation.TransGen g.Edge f f) ↔
      ∃ line, Relation.TransGen (LineCalls text) line line := by
  constructor
  · rintro ⟨f, hf, hcircle⟩
    obtain ⟨line, hline, v, hv⟩ := h.exists_line hf
    exact ⟨line, h.transGen_calls hcircle hf hv hline hv hline⟩
  · rintro ⟨line, hcircle⟩
    obtain ⟨_, hcall, _⟩ := Relation.TransGen.head'_iff.mp hcircle
    obtain ⟨f, hf, v, hv⟩ := h.exists_formula hcall.1
    obtain ⟨f', hf', ⟨w, hw⟩, hpath⟩ := h.transGen_edges hcircle hf hv
    obtain ⟨x, hx⟩ := List.exists_mem_of_ne_nil _ (h.declares line hcall.1)
    obtain rfl := h.formula_unique hf hf' hv hw hx hx
    exact ⟨f, hf, hpath⟩

/-- A circle of the graph is one of the text: it lists labels of lines, each of which calls a name that the
next declares. -/
theorem circle_lines (h : g.Renders text) {f : Handle} {rest : List Handle} {labels : List String}
    (hcircle : g.Circle f rest) (hin : ∀ i ∈ f :: rest, i ∈ g.formulas)
    (hlabels : g.labels (f :: (rest ++ [f])) = .ok labels) :
    ∃ first others, labels = (first :: (others ++ [first])).map unindented ∧ others ≠ [] ∧
      ((first :: others).map unindented).Nodup ∧ (∀ line ∈ first :: others, line ∈ textLines text) ∧
      (first :: (others ++ [first])).IsChain (LineCalls text) := by
  have hall : ∀ i ∈ f :: (rest ++ [f]), i ∈ g.formulas := by
    intro i hi
    rw [← List.cons_append, List.mem_append, List.mem_singleton] at hi
    exact hi.elim (hin i) fun he => he ▸ hin f List.mem_cons_self
  choose! lineOf hline v hv using fun i (hi : i ∈ g.formulas) => h.exists_line hi
  refine ⟨lineOf f, rest.map lineOf, ?_, ?_, ?_, ?_, ?_⟩
  · have hmap := labels_eq_map (f := unindented ∘ lineOf) fun i hi => (hv i (hall i hi)).nameOf?
    rw [hlabels] at hmap
    simpa using Except.ok.inj hmap
  · intro hnil
    obtain rfl : rest = [] := List.map_eq_nil_iff.mp hnil
    have hedge : g.Edge f f := (List.isChain_cons_cons.mp hcircle.chain).1
    exact ((h.edges f (hin f List.mem_cons_self) f).mp hedge).2.1 rfl
  · rw [← List.map_cons, List.map_map]
    refine List.Nodup.map_on ?_ hcircle.nodup
    intro i hi j hj hij
    refine h.label_unique (hin i hi) (hin j hj) ?_
    rw [(hv i (hin i hi)).nameOf?, (hv j (hin j hj)).nameOf?]
    exact congrArg some hij
  · rw [← List.map_cons]
    intro line hl
    obtain ⟨i, hi, rfl⟩ := List.mem_map.mp hl
    exact hline i (hin i hi)
  · have hmap : (f :: (rest ++ [f])).map lineOf = lineOf f :: (rest.map lineOf ++ [lineOf f]) := by simp
    rw [← hmap, List.isChain_map]
    refine hcircle.chain.imp_of_mem_imp ?_
    intro i j hi hj hij
    exact (h.edge_iff (hall i hi) (hall j hj) (hv i (hall i hi)) (hv j (hall j hj)) (hline i (hall i hi))
      (hline j (hall j hj))).mp hij

end Renders

end Graph

/-- Ordering an accepted text fails exactly if some line calls itself through others. -/
theorem order_error_iff_calls {text : String} {g : Graph} (h : readFormulas text = .ok g) :
    (∃ e, g.order.2 = .error e) ↔ ∃ line, Relation.TransGen (LineCalls text) line line :=
  (Graph.order_error_iff (Graph.renders_readFormulas h).linked).trans
    (Graph.renders_readFormulas h).circle_iff

/-- **Ordering an accepted text fails exactly on circles of lines**, and otherwise returns. The failure lists
labels of lines, from one line back to it, each of which calls a name that the next declares. -/
theorem order_cyclic_iff {text : String} {g : Graph} (h : readFormulas text = .ok g) :
    ((∃ labels, g.order.2 = .error (.cyclic (.acrossLines labels))) ↔
      ∃ line, Relation.TransGen (LineCalls text) line line) ∧
    ((∃ ordered, g.order.2 = .ok ordered) ↔ ¬ ∃ line, Relation.TransGen (LineCalls text) line line) ∧
    ∀ e, g.order.2 = .error e → ∃ first others,
      e = .cyclic (.acrossLines ((first :: (others ++ [first])).map unindented)) ∧ others ≠ [] ∧
      ((first :: others).map unindented).Nodup ∧ (∀ line ∈ first :: others, line ∈ textLines text) ∧
      (first :: (others ++ [first])).IsChain (LineCalls text) := by
  have hrenders := Graph.renders_readFormulas h
  have horders := Graph.orders hrenders.linked
  rw [← order_error_iff_calls h]
  generalize g.order = result at horders ⊢
  cases horders with
  | sorted _ _ _ _ => simp
  | circular _ hcircle hin hlabels =>
    refine ⟨by simp, by simp, ?_⟩
    intro e he
    obtain rfl := Except.error.inj he
    obtain ⟨first, others, rfl, hlines⟩ := hrenders.circle_lines hcircle hin hlabels
    exact ⟨first, others, rfl, hlines⟩

/-- The two lines `a=b` and `b=a` are accepted, and not ordered. -/
theorem order_two_lines : ∃ g, readFormulas "a=b\nb=a" = .ok g ∧
    ∃ labels, g.order.2 = .error (.cyclic (.acrossLines labels)) := by
  have hlines : textLines "a=b\nb=a" = ["a=b", "b=a"] := by decide +kernel
  have hnames := declares_a_b.declaredNames_eq
  have hnames' := declares_b_a.declaredNames_eq
  have hcalls : calledNames "a=b" = ["b"] := declares_a_b.calledNames_eq
  have hcalls' : calledNames "b=a" = ["a"] := declares_b_a.calledNames_eq
  obtain ⟨g, hread⟩ := exists_readFormulas_of_pair hlines declares_a_b declares_b_a (by decide)
    (by simp [idents]) (by simp [idents])
  have hcall : LineCalls "a=b\nb=a" "a=b" "b=a" :=
    ⟨by simp [hlines], by simp [hlines], by simp [hcalls, hnames']⟩
  have hcall' : LineCalls "a=b\nb=a" "b=a" "a=b" :=
    ⟨by simp [hlines], by simp [hlines], by simp [hcalls', hnames]⟩
  exact ⟨g, hread, (order_cyclic_iff hread).1.mpr ⟨"a=b", .tail (.single hcall) hcall'⟩⟩

end EvalOrder
