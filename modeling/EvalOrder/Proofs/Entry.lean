import EvalOrder.Proofs.Blame
import EvalOrder.Proofs.Distinct
import EvalOrder.Proofs.TextLine
import EvalOrder.Proofs.WellFormed

/-!
# Entering a line

What `Session.enter` does with one line. The names that were read are registered whatever comes of the line
(`note`). Then there are five ways: the line does not begin with a token, or cannot be read, or declares
another number of names than it has expressions, or calls a name of its own, or becomes a formula; a formula
is made even when something follows it.

Results:
* `relateCalls_of_apart`, `relateCalls_of_call`: what relating the names of a line does, with and without
  a call of a name of its own.
* `noted_names`: the names of a line are found at their handles.
* `way_enter`: a line goes one of the five ways.
* **`WellFormed.enter`**: whatever comes of the line, the session stays well-formed.
* `enter_blames`, `enter_error`: a line is refused at one of its tokens as malformed, or as circular.
* `exists_enter_error`: so is a line in a run over lines.
* `exists_lastToken`, `read_eq`: when all lines are entered, reading stands at the end of the text.
-/

namespace EvalOrder

open Grammar

/-! ## Members of lists -/

/-- The first member with a property. -/
theorem exists_first {α : Type} {P : α → Prop} {xs : List α} (h : ∃ x ∈ xs, P x) :
    ∃ x pre post, xs = pre ++ x :: post ∧ P x ∧ ∀ y ∈ pre, ¬ P y := by
  classical
  obtain ⟨x, hx⟩ := Option.isSome_iff_exists.mp
    (List.find?_isSome.mpr (h.imp fun x hx => ⟨hx.1, decide_eq_true hx.2⟩) : (xs.find? (P ·)).isSome)
  obtain ⟨hp, pre, post, heq, hpre⟩ := List.find?_eq_some_iff_append.mp hx
  exact ⟨x, pre, post, heq, by simpa using hp, by simpa using hpre⟩

/-- What is related to a list by pairs has a partner in it. -/
theorem exists_of_mem_right {α β : Type} {R : α → β → Prop} {xs : List α} {ys : List β}
    (h : List.Forall₂ R xs ys) {y : β} (hy : y ∈ ys) : ∃ x ∈ xs, R x y := by
  induction h with
  | nil => exact absurd hy List.not_mem_nil
  | cons hxy _ ih =>
    rcases List.mem_cons.mp hy with rfl | hy
    · exact ⟨_, List.mem_cons_self, hxy⟩
    · obtain ⟨x, hx, hr⟩ := ih hy
      exact ⟨x, List.mem_cons_of_mem _ hx, hr⟩

namespace Graph

/-! ## Relating the names of a line -/

theorem label_eq {g : Graph} {h : Handle} {v : Vertex} (hv : g.vertices[h]? = some v) :
    g.label h = .ok v.name := by
  simp [label, get_eq_ok_iff.mpr hv, bind, Except.bind, pure, Except.pure]

/-- An edge leaves the names of vertices alone. -/
theorem name_update_addRelated {g : Graph} {h : Handle} {u : Vertex} (hu : g.vertices[h]? = some u)
    (a b : Handle) :
    ∃ u', (g.update a (·.addRelated b)).vertices[h]? = some u' ∧ u'.name = u.name := by
  rw [vertices_update, hu]
  split
  · exact ⟨_, rfl, rfl⟩
  · exact ⟨_, rfl, rfl⟩

/-- Without a call of a name of the line all edges are added. -/
theorem relateCalls_of_apart {declared : List Handle} :
    ∀ {pairs : List (Handle × Handle)} {g : Graph}, (∀ p ∈ pairs, p.1 < g.size) →
      (∀ p ∈ pairs, p.2 ∉ declared) → g.relateCalls declared pairs = (g.addEdges pairs, .ok ())
  | [], g, _, _ => rfl
  | (a, b) :: pairs, g, hlt, hapart => by
    obtain ⟨ha, hlt⟩ := List.forall_mem_cons.mp hlt
    obtain ⟨hb, hapart⟩ := List.forall_mem_cons.mp hapart
    simp only [relateCalls, addRelated_eq ha]
    rw [if_neg hb, relateCalls_of_apart (by simpa using hlt) hapart]
    rfl

/-- The first call of a name of the line is added too, and then reported. -/
theorem relateCalls_of_call {declared : List Handle} {a b : Handle} {v w : Vertex}
    {post : List (Handle × Handle)} :
    ∀ {pre : List (Handle × Handle)} {g : Graph}, (∀ p ∈ pre, p.1 < g.size) → (∀ p ∈ pre, p.2 ∉ declared) →
      g.vertices[a]? = some v → g.vertices[b]? = some w → b ∈ declared →
      g.relateCalls declared (pre ++ (a, b) :: post) =
        (g.addEdges (pre ++ [(a, b)]), .error (.cyclic (.onLine v.name w.name)))
  | [], g, _, _, hv, hw, hb => by
    have ha : a < g.size := lt_size hv
    obtain ⟨v', hv', hname⟩ := name_update_addRelated hv a b
    obtain ⟨w', hw', hname'⟩ := name_update_addRelated hw a b
    simp only [List.nil_append, relateCalls, addRelated_eq ha, if_pos hb, label_eq hv', label_eq hw',
      hname, hname']
    rfl
  | (c, d) :: pre, g, hlt, hapart, hv, hw, hb => by
    obtain ⟨hc, hlt⟩ := List.forall_mem_cons.mp hlt
    obtain ⟨hd, hapart⟩ := List.forall_mem_cons.mp hapart
    obtain ⟨v', hv', hname⟩ := name_update_addRelated hv c d
    obtain ⟨w', hw', hname'⟩ := name_update_addRelated hw c d
    simp only [List.cons_append, relateCalls, addRelated_eq hc, if_neg hd]
    rw [relateCalls_of_call (by simpa using hlt) hapart hv' hw' hb, hname, hname']
    rfl

/-- Names that have handles have different ones. -/
theorem Named.injective_on {g : Graph} (hg : g.Named) {ns : List String} {hs : List Handle}
    (h : ns.map g.find? = hs.map some) : ∀ x ∈ ns, ∀ y ∈ ns, g.find? x = g.find? y → x = y := by
  intro x hx y _ hxy
  obtain ⟨i, -, hi⟩ := exists_handle h hx
  exact hg.injective hi (hxy ▸ hi)

/-- Names and their handles are met in the same order. -/
theorem Named.distinct_find? {g : Graph} (hg : g.Named) {ns : List String} {hs : List Handle}
    (h : ns.map g.find? = hs.map some) :
    (distinct ns).map g.find? = (distinct hs).map some := by
  rw [← distinct_map g.find? (hg.injective_on h), h]
  exact distinct_map some fun x _ y _ hxy => Option.some.inj hxy

end Graph

namespace Session

/-- What holds of every session: its graph is well-formed and not yet searched, and what its formulas declare
is defined. -/
structure WellFormed (s : Session) : Prop where
  graph : s.graph.WellFormed
  unsearched : s.graph.Unsearched
  isDefined : ∀ f ∈ s.graph.formulas, ∀ d ∈ s.graph.declaredBy f, ∃ x ∈ s.defined, s.graph.find? x = some d

/-! ## Noting the names of a line -/

/-- What a session reads in a line. -/
def reading (s : Session) (c : Cursor) : Reading := .ofLexed s.defined (.ofCursor c)

/-- The session after the names of a line have been noted. -/
def noted (s : Session) (c : Cursor) : Session := (s.note (s.reading c)).2.2

/-- The handles of the names that a line declares. -/
def declaring (s : Session) (c : Cursor) : List Handle := (s.note (s.reading c)).1

/-- The handles of the names that each expression of a line calls. -/
def calling (s : Session) (c : Cursor) : List (List Handle) := (s.note (s.reading c)).2.1

/-- Noting the names of a line finds them at the handles that it returns. -/
theorem noted_names {s : Session} (hs : s.graph.Named) (c : Cursor) :
    (s.noted c).graph.Named ∧ (s.reading c).names.map (s.noted c).graph.find? = (s.declaring c).map some ∧
      List.Forall₂ (fun ns hs => (distinct ns).map (s.noted c).graph.find? = hs.map some)
        (s.reading c).expressions (s.calling c) := by
  have hnamed := (hs.registerAll (s.reading c).names).registerGroups (s.reading c).expressions
  obtain ⟨-, hfind⟩ := Graph.extends_registerAll (s.reading c).names s.graph
  obtain ⟨hext, hfind'⟩ :=
    Graph.extends_registerGroups (s.reading c).expressions (s.graph.registerAll (s.reading c).names).2
  exact ⟨hnamed, hext.map_find? hfind,
    List.forall₂_map_right_iff.mpr (hfind'.imp fun ns hs h => hnamed.distinct_find? h)⟩

/-- What noting the names of a line does. -/
theorem noted_spec {s : Session} (hs : s.graph.WellFormed) (c : Cursor) :
    (s.noted c).graph.WellFormed ∧ s.graph.Extends (s.noted c).graph ∧
      (s.reading c).names.map (s.noted c).graph.find? = (s.declaring c).map some ∧
      List.Forall₂ (fun ns hs => (distinct ns).map (s.noted c).graph.find? = hs.map some)
        (s.reading c).expressions (s.calling c) ∧
      (s.noted c).defined = s.defined ++ (s.reading c).names ∧
      (s.noted c).called = addAll s.called (s.reading c).expressions.flatten := by
  obtain ⟨-, hdeclared, hcalls⟩ := noted_names hs.named c
  obtain ⟨hext, -⟩ := Graph.extends_registerAll (s.reading c).names s.graph
  obtain ⟨hext', -⟩ :=
    Graph.extends_registerGroups (s.reading c).expressions (s.graph.registerAll (s.reading c).names).2
  exact ⟨(hs.registerAll _).registerGroups _, hext.trans hext', hdeclared, hcalls, rfl, rfl⟩

/-! ## The ways a line can go -/

/-- Each declared name with each name that its expression calls. -/
def callPairs (declared : List Handle) (calls : List (List Handle)) : List (Handle × Handle) :=
  (declared.zip calls).flatMap fun (name, cs) => cs.map fun c => (name, c)

theorem mem_callPairs {declared : List Handle} {calls : List (List Handle)} {a b : Handle}
    (h : (a, b) ∈ callPairs declared calls) : a ∈ declared ∧ ∃ group ∈ calls, b ∈ group := by
  obtain ⟨⟨name, group⟩, hz, hc⟩ := List.mem_flatMap.mp h
  obtain ⟨c, hcg, he⟩ := List.mem_map.mp hc
  obtain ⟨rfl, rfl⟩ := Prod.mk.inj he
  exact ⟨(List.of_mem_zip hz).1, group, (List.of_mem_zip hz).2, hcg⟩

/-- With a group for each declared name every call is in a pair. -/
theorem exists_mem_callPairs {declared : List Handle} {calls : List (List Handle)}
    (h : declared.length = calls.length) {group : List Handle} (hg : group ∈ calls) {b : Handle}
    (hb : b ∈ group) : ∃ a, (a, b) ∈ callPairs declared calls := by
  obtain ⟨i, hi, rfl⟩ := List.mem_iff_getElem.mp hg
  have hi' : i < declared.length := h ▸ hi
  refine ⟨declared[i], List.mem_flatMap.mpr ⟨(declared[i], calls[i]), ?_, List.mem_map.mpr ⟨b, hb, rfl⟩⟩⟩
  exact List.mem_iff_getElem.mpr ⟨i, by rw [List.length_zip]; omega, List.getElem_zip⟩

/-- The five ways of a line: no token stands in front, it cannot be read, it has another number of
expressions than of names, it calls a name of its own, or it becomes a formula. -/
inductive Way (s : Session) (c : Cursor) : Entry → Prop
  | noToken {e : Failure} : (Lexed.ofCursor c).head = .error e → Way s c ⟨s, none, .error e⟩
  | unread {first : Token} {e : Failure} : (Lexed.ofCursor c).head = .ok first →
      (s.reading c).outcome = .error e → Way s c ⟨s.noted c, none, .error e⟩
  | unmatched {first finish : Token} : (Lexed.ofCursor c).head = .ok first →
      (s.reading c).outcome = .ok finish → (s.declaring c).length ≠ (s.calling c).length →
      Way s c ⟨s.noted c, none, .error (finish.start.malformed .badDeclaration)⟩
  | circular {first finish : Token} {pre post : List (Handle × Handle)} {a b : Handle} {v w : Vertex} :
      (Lexed.ofCursor c).head = .ok first → (s.reading c).outcome = .ok finish →
      (s.declaring c).length = (s.calling c).length →
      callPairs (s.declaring c) (s.calling c) = pre ++ (a, b) :: post →
      (∀ p ∈ pre, p.2 ∉ s.declaring c) → b ∈ s.declaring c →
      (s.noted c).graph.vertices[a]? = some v → (s.noted c).graph.vertices[b]? = some w →
      Way s c ⟨{ s.noted c with graph := (s.noted c).graph.addEdges (pre ++ [(a, b)]) }, none,
        .error (.cyclic (.onLine v.name w.name))⟩
  | formula {first finish : Token} : (Lexed.ofCursor c).head = .ok first →
      (s.reading c).outcome = .ok finish → (s.declaring c).length = (s.calling c).length →
      (∀ p ∈ callPairs (s.declaring c) (s.calling c), p.2 ∉ s.declaring c) →
      Way s c
        ⟨{ s.noted c with
            graph := (((s.noted c).graph.addEdges (callPairs (s.declaring c) (s.calling c))).addFormula
              (labelOf first finish) (s.declaring c) (s.calling c)).2 },
          some ⟨first.start.row, labelOf first finish, (s.reading c).names⟩,
          if finish.tag = .endOfText then .ok () else .error (finish.expected .endOfText)⟩

/-- The handles of a line are those of names. -/
theorem isName_of_callPairs {s : Session} (hs : s.graph.Named) (c : Cursor) {p : Handle × Handle}
    (hp : p ∈ callPairs (s.declaring c) (s.calling c)) :
    (s.noted c).graph.IsName p.1 ∧ (s.noted c).graph.IsName p.2 := by
  obtain ⟨-, hdeclared, hcalls⟩ := noted_names hs c
  obtain ⟨ha, group, hgroup, hb⟩ := mem_callPairs hp
  constructor
  · obtain ⟨x, -, hx⟩ := Graph.exists_name hdeclared ha
    exact ⟨x, hx⟩
  · obtain ⟨ns, -, hfind⟩ := exists_of_mem_right hcalls hgroup
    obtain ⟨x, -, hx⟩ := Graph.exists_name hfind hb
    exact ⟨x, hx⟩

theorem enter_of_head (s : Session) {c : Cursor} {first : Token} (h : (Lexed.ofCursor c).head = .ok first) :
    s.enter c = match (s.reading c).outcome with
      | .error e => ⟨s.noted c, none, .error e⟩
      | .ok finish =>
        if (s.declaring c).length ≠ (s.calling c).length then
          ⟨s.noted c, none, .error (finish.start.malformed .badDeclaration)⟩
        else match (s.noted c).graph.relateCalls (s.declaring c)
            (callPairs (s.declaring c) (s.calling c)) with
          | (g, .error e) => ⟨{ s.noted c with graph := g }, none, .error e⟩
          | (g, .ok ()) =>
            ⟨{ s.noted c with
                graph := (g.addFormula (labelOf first finish) (s.declaring c) (s.calling c)).2 },
              some ⟨first.start.row, labelOf first finish, (s.reading c).names⟩,
              if finish.tag = .endOfText then .ok () else .error (finish.expected .endOfText)⟩ := by
  simp only [enter, h]
  rfl

/-- A line goes one of the ways. -/
theorem way_enter {s : Session} (hs : s.graph.Named) (c : Cursor) : Way s c (s.enter c) := by
  obtain ⟨hnamed, -⟩ := noted_names hs c
  have hlt : ∀ p ∈ callPairs (s.declaring c) (s.calling c), p.1 < (s.noted c).graph.size := fun p hp =>
    hnamed.isName_lt (isName_of_callPairs hs c hp).1
  cases hhead : (Lexed.ofCursor c).head with
  | error e =>
    have henter : s.enter c = ⟨s, none, .error e⟩ := by simp only [enter, hhead]
    rw [henter]
    exact .noToken hhead
  | ok first =>
    rw [enter_of_head s hhead]
    cases hout : (s.reading c).outcome with
    | error e => exact .unread hhead hout
    | ok finish =>
      by_cases hlen : (s.declaring c).length = (s.calling c).length
      · simp only [hlen, ne_eq, not_true, if_false]
        by_cases hcall : ∃ p ∈ callPairs (s.declaring c) (s.calling c), p.2 ∈ s.declaring c
        · obtain ⟨⟨a, b⟩, pre, post, hpairs, hb, hpre⟩ := exists_first hcall
          have hmem : (a, b) ∈ callPairs (s.declaring c) (s.calling c) := by simp [hpairs]
          obtain ⟨⟨x, hx⟩, y, hy⟩ := isName_of_callPairs hs c hmem
          obtain ⟨v, hv, -⟩ := hnamed x a hx
          obtain ⟨w, hw, -⟩ := hnamed y b hy
          have hlt' : ∀ p ∈ pre, p.1 < (s.noted c).graph.size := fun p hp =>
            hlt p (hpairs ▸ List.mem_append_left _ hp)
          rw [hpairs, Graph.relateCalls_of_call hlt' hpre hv hw hb]
          exact .circular hhead hout hlen hpairs hpre hb hv hw
        · have hapart : ∀ p ∈ callPairs (s.declaring c) (s.calling c), p.2 ∉ s.declaring c :=
            fun p hp hm => hcall ⟨p, hp, hm⟩
          rw [Graph.relateCalls_of_apart hlt hapart]
          exact .formula hhead hout hlen hapart
      · simp only [hlen, ne_eq, not_false_eq_true, if_true]
        exact .unmatched hhead hout hlen

/-! ## What stays well-formed -/

theorem wellFormed_empty : WellFormed {} where
  graph := Graph.wellFormed_empty
  unsearched h v hv := by simp at hv
  isDefined _ h := absurd h List.not_mem_nil

namespace WellFormed

variable {s : Session}

/-- Noting the names of a line. -/
theorem noted (hs : s.WellFormed) (c : Cursor) : (s.noted c).WellFormed := by
  obtain ⟨hwf, hext, -, -, hdefined, -⟩ := noted_spec hs.graph c
  refine ⟨hwf, (hs.unsearched.registerAll _).registerGroups _, ?_⟩
  intro f hf d hd
  have hf : f ∈ s.graph.formulas := hext.formulas ▸ hf
  have hd : d ∈ s.graph.declaredBy f := hext.declaredBy (hs.graph.inRange f hf) ▸ hd
  obtain ⟨x, hx, hfind⟩ := hs.isDefined f hf d hd
  exact ⟨x, hdefined ▸ List.mem_append_left _ hx, hext.find? hfind⟩

/-- Adding edges. -/
theorem addEdges (hs : s.WellFormed) {edges : List (Handle × Handle)}
    (h : ∀ e ∈ edges, s.graph.MayRelate e.1 e.2) :
    WellFormed { s with graph := s.graph.addEdges edges } := by
  obtain ⟨-, -, hformulas⟩ := Graph.addEdges_keeps edges s.graph
  refine ⟨hs.graph.addEdges h, hs.unsearched.addEdges _, ?_⟩
  intro f hf d hd
  obtain ⟨x, hx, hfind⟩ :=
    hs.isDefined f (hformulas ▸ hf) d (Graph.declaredBy_addEdges s.graph edges f ▸ hd)
  exact ⟨x, hx, (Graph.find?_addEdges s.graph edges x).trans hfind⟩

/-- Adding a formula that declares names which are defined. -/
theorem addFormula (hs : s.WellFormed) {label : String} {declared : List Handle}
    {calls : List (List Handle)} (hne : declared ≠ []) (hnodup : declared.Nodup)
    (hdeclared : ∀ d ∈ declared, ∃ x ∈ s.defined, s.graph.find? x = some d)
    (hcalls : ∀ group ∈ calls, ∀ c ∈ group, s.graph.IsName c)
    (hfree : ∀ f ∈ s.graph.formulas, ∀ d ∈ s.graph.declaredBy f, d ∉ declared) :
    WellFormed { s with graph := (s.graph.addFormula label declared calls).2 } := by
  have hname : ∀ d ∈ declared, s.graph.IsName d := fun d hd =>
    (hdeclared d hd).imp fun _ hx => hx.2
  refine ⟨hs.graph.addFormula hne hnodup hname hcalls hfree, hs.unsearched.addFormula _ _ _,
    ?_⟩
  intro f hf d hd
  obtain ⟨v, hv, hdv⟩ := Graph.mem_declaredBy.mp hd
  rw [Graph.vertices_addFormula] at hv
  split at hv
  · obtain rfl := Option.some.inj hv
    exact hdeclared d hdv
  · rename_i hold
    have hf : f ∈ s.graph.formulas := by
      rcases List.mem_append.mp hf with hf | hf
      · exact hf
      · exact absurd (List.mem_singleton.mp hf) hold
    exact hs.isDefined f hf d (Graph.mem_declaredBy.mpr ⟨v, hv, hdv⟩)

end WellFormed

/-- Names that were read to the end are fresh, and none stands twice. -/
theorem names_of_outcome {s : Session} {c : Cursor} {finish : Token}
    (h : (s.reading c).outcome = .ok finish) :
    (s.reading c).names ≠ [] ∧ (s.reading c).names.Nodup ∧ ∀ n ∈ (s.reading c).names, n ∉ s.defined := by
  have hread : Reading.ofLexed s.defined (.ofCursor c) =
      ⟨(s.reading c).names, (s.reading c).expressions, .ok finish⟩ := by
    rw [← h]
    rfl
  obtain ⟨l, e, r, sums, rest, -, hnames, hnodup, hfresh, -⟩ := Reading.ofLexed_eq_ok_iff.mp hread
  exact ⟨hnames.ne_nil, hnodup, hfresh⟩

/-- Their handles are as many, and no formula declares one of them. -/
theorem declaring_of_outcome {s : Session} (hs : s.WellFormed) {c : Cursor} {finish : Token}
    (h : (s.reading c).outcome = .ok finish) :
    s.declaring c ≠ [] ∧ (s.declaring c).Nodup ∧
      (∀ d ∈ s.declaring c, ∃ x ∈ (s.noted c).defined, (s.noted c).graph.find? x = some d) ∧
      ∀ f ∈ (s.noted c).graph.formulas, ∀ d ∈ (s.noted c).graph.declaredBy f, d ∉ s.declaring c := by
  obtain ⟨hwf, hext, hfind, -, hdefined, -⟩ := noted_spec hs.graph c
  obtain ⟨hne, hnodup, hfresh⟩ := names_of_outcome h
  refine ⟨?_, ?_, ?_, ?_⟩
  · intro hnil
    rw [hnil, List.map_nil, List.map_eq_nil_iff] at hfind
    exact hne hfind
  · have hmap : ((s.reading c).names.map (s.noted c).graph.find?).Nodup :=
      hnodup.map_on (hwf.named.injective_on hfind)
    exact (hfind ▸ hmap).of_map some
  · intro d hd
    obtain ⟨x, hx, hxd⟩ := Graph.exists_name hfind hd
    exact ⟨x, hdefined ▸ List.mem_append_right _ hx, hxd⟩
  · intro f hf d hd hd'
    have hf : f ∈ s.graph.formulas := hext.formulas ▸ hf
    have hd : d ∈ s.graph.declaredBy f := hext.declaredBy (hs.graph.inRange f hf) ▸ hd
    obtain ⟨x, hx, hxd⟩ := hs.isDefined f hf d hd
    obtain ⟨y, hy, hyd⟩ := Graph.exists_name hfind hd'
    exact hfresh y hy (hwf.injective (hext.find? hxd) hyd ▸ hx)

/-- The calls of a line may become edges. -/
theorem mayRelate_of_callPairs {s : Session} (hs : s.WellFormed) (c : Cursor) {p : Handle × Handle}
    (hp : p ∈ callPairs (s.declaring c) (s.calling c)) : (s.noted c).graph.MayRelate p.1 p.2 :=
  .inl (isName_of_callPairs hs.graph.named c hp)

/-- **A session stays well-formed**, whatever comes of a line. -/
theorem WellFormed.enter {s : Session} (hs : s.WellFormed) (c : Cursor) :
    (s.enter c).session.WellFormed := by
  have hway := way_enter hs.graph.named c
  generalize s.enter c = entry at hway ⊢
  cases hway with
  | noToken _ => exact hs
  | unread _ _ => exact hs.noted c
  | unmatched _ _ _ => exact hs.noted c
  | circular _ _ _ hpairs _ _ _ _ =>
    refine (hs.noted c).addEdges fun p hp => mayRelate_of_callPairs hs c ?_
    rw [hpairs, List.append_cons]
    exact List.mem_append_left _ hp
  | formula _ hout hlen _ =>
    obtain ⟨hne, hnodup, hdeclared, hfree⟩ := declaring_of_outcome hs hout
    have hedges := (hs.noted c).addEdges fun p hp => mayRelate_of_callPairs hs c hp
    have hformulas := (Graph.addEdges_keeps (callPairs (s.declaring c) (s.calling c))
      (s.noted c).graph).2.2
    refine hedges.addFormula hne hnodup ?_ ?_ ?_
    · intro d hd
      obtain ⟨x, hx, hfind⟩ := hdeclared d hd
      exact ⟨x, hx, (Graph.find?_addEdges _ _ x).trans hfind⟩
    · intro group hgroup t ht
      obtain ⟨a, ha⟩ := exists_mem_callPairs hlen hgroup ht
      exact (Graph.isName_addEdges _ _ t).mpr (isName_of_callPairs hs.graph.named c ha).2
    · intro f hf d hd
      exact hfree f (hformulas ▸ hf) d (Graph.declaredBy_addEdges _ _ f ▸ hd)

/-- A line is refused at one of its tokens, or because it calls a name of its own. -/
theorem enter_blames {s : Session} (hs : s.graph.Named) {c : Cursor} {e : Failure}
    (h : (s.enter c).outcome = .error e) :
    (Lexed.ofCursor c).Blames e ∨ ∃ x y, e = .cyclic (.onLine x y) := by
  have hway := way_enter hs c
  generalize s.enter c = entry at hway h
  cases hway with
  | noToken hhead =>
    obtain rfl := Except.error.inj h
    exact .inl (Lexed.head_blames hhead)
  | unread _ hout =>
    obtain rfl := Except.error.inj h
    exact .inl (Reading.ofLexed_blames hout)
  | unmatched _ hout _ =>
    obtain rfl := Except.error.inj h
    exact .inl (.start (Reading.mem_tokens_of_outcome hout))
  | circular _ _ _ _ _ _ _ _ =>
    obtain rfl := Except.error.inj h
    exact .inr ⟨_, _, rfl⟩
  | formula _ hout _ _ =>
    split at h
    · cases h
    · obtain rfl := Except.error.inj h
      exact .inl (.follow (Reading.mem_tokens_of_outcome hout))

/-- A line is refused as malformed, or because it calls a name of its own. -/
theorem enter_error {s : Session} (hs : s.graph.Named) {c : Cursor} (hc : c.Bounded) {e : Failure}
    (h : (s.enter c).outcome = .error e) :
    (∃ m, e = .malformed m) ∨ ∃ x y, e = .cyclic (.onLine x y) :=
  (enter_blames hs h).imp_left fun hblames => hblames.malformed (proper_ofCursor hc)

/-- What ends a run over lines is what is wrong with one of them. -/
theorem exists_enter_error {cs : List Cursor} {s : Session} {e : Failure} (h : (s.enterAll cs).2.2 = .error e) :
    ∃ c ∈ cs, ∃ s' : Session, (s.WellFormed → s'.WellFormed) ∧ (s'.enter c).outcome = .error e := by
  induction cs generalizing s with
  | nil => cases h
  | cons c cs ih =>
    rw [enterAll] at h
    cases hout : (s.enter c).outcome with
    | error e' =>
      rw [hout] at h
      obtain rfl := Except.error.inj h
      exact ⟨c, List.mem_cons_self, s, id, hout⟩
    | ok u =>
      simp only [hout] at h
      obtain ⟨c', hc', s', hwf, hs'⟩ := ih h
      exact ⟨c', List.mem_cons_of_mem _ hc', s', fun hs => hwf (hs.enter c), hs'⟩

/-! ## Where a text ends -/

/-- A line that is accepted is read to the end of its text. -/
theorem exists_end_of_enter {s : Session} {c : Cursor} (hc : c.Bounded) (h : (s.enter c).outcome = .ok ()) :
    ∃ t, (Lexed.ofCursor c).end? = some t := by
  cases hhead : (Lexed.ofCursor c).head with
  | error e =>
    simp only [enter, hhead] at h
    cases h
  | ok first =>
    rw [enter_of_head s hhead] at h
    cases hout : (s.reading c).outcome with
    | error e =>
      rw [hout] at h
      cases h
    | ok finish =>
      simp only [hout] at h
      split at h
      · cases h
      · split at h
        · cases h
        · have htag : finish.tag = .endOfText := by
            by_contra htag
            rw [if_neg htag] at h
            cases h
          have hread : s.reading c = ⟨(s.reading c).names, (s.reading c).expressions, .ok finish⟩ := by rw [← hout]
          exact ⟨finish, ((Reading.ofLexed_endOfText_iff (proper_ofCursor hc)).mp ⟨hread, htag⟩).2.1⟩

theorem exists_end_of_enterAll {cs : List Cursor} (hcs : ∀ c ∈ cs, c.Bounded) {s : Session}
    (h : (s.enterAll cs).2.2 = .ok ()) : ∀ c ∈ cs, ∃ t, (Lexed.ofCursor c).end? = some t := by
  induction cs generalizing s with
  | nil => exact fun _ hc => absurd hc List.not_mem_nil
  | cons c cs ih =>
    rw [enterAll] at h
    cases hout : (s.enter c).outcome with
    | error e =>
      rw [hout] at h
      cases h
    | ok u =>
      simp only [hout] at h
      rw [List.forall_mem_cons] at hcs ⊢
      exact ⟨exists_end_of_enter hcs.1 hout, ih hcs.2 h⟩

/-- When the lines of a text are entered, reading stands at the end of the text. -/
theorem exists_lastToken {s : Session} {text : String}
    (h : (s.enterAll (lineCursors (terminated text.toList))).2.2 = .ok ()) :
    ∃ t, lastToken (lineCursors (terminated text.toList)) = .ok t ∧
      t.start.toPlace = Place.afterAll {} (terminated text.toList) := by
  have hne : lineCursors (terminated text.toList) ≠ [] := by
    intro hnil
    have hwindow := window_lineCursors (terminated text.toList)
    rw [hnil, lines_terminated] at hwindow
    exact textLines_ne_nil text (List.map_eq_nil_iff.mp hwindow.symm)
  obtain ⟨c, hlast⟩ : ∃ c, (lineCursors (terminated text.toList)).getLast? = some c :=
    ⟨_, List.getLast?_eq_some_getLast hne⟩
  have hbounded : ∀ c ∈ lineCursors (terminated text.toList), c.Bounded := fun _ hc => bounded_of_mem_lineCursors hc
  have hc : c ∈ lineCursors (terminated text.toList) := List.mem_of_getLast? hlast
  obtain ⟨t, ht⟩ := exists_end_of_enterAll hbounded h c hc
  refine ⟨t, by simp [lastToken, hlast, ht], ?_⟩
  rw [start_of_end? (hbounded c hc) ht, past_window_of_getLast? hlast]

/-- **Reading a text.** Names that stay undeclared are reported at the end of the text. -/
theorem read_eq (s : Session) (text : String) :
    s.read text = match s.enterAll (lineCursors (terminated text.toList)) with
      | (s, declarations, .error e) => ⟨s, declarations, [], .error e⟩
      | (s, declarations, .ok ()) =>
        if s.undefined ≠ [] then
          ⟨s, declarations, [], .error (.malformed ⟨Place.afterAll {} (terminated text.toList),
            .undefined s.undefined⟩)⟩
        else ⟨{ s with graph := s.graph.link }, declarations, s.graph.linkEdges, .ok ()⟩ := by
  have hend := @exists_lastToken s text
  unfold read
  simp only
  generalize s.enterAll (lineCursors (terminated text.toList)) = result at hend ⊢
  obtain ⟨s', declarations, outcome⟩ := result
  cases outcome with
  | error e => rfl
  | ok u =>
    obtain ⟨t, ht, hplace⟩ := hend rfl
    simp only [ht, bind, Except.bind, Cursor.malformed, hplace]

end Session

end EvalOrder
