import EvalOrder.Proofs.Entry

/-!
# Accepted lines

When a line is accepted, and what an accepted line adds: its names are defined, its calls noted, and one
formula stands in the graph for it (`Shows`), while all that stood there before stays (`Grows`).

Results:
* `enter_eq_ok_iff`: acceptance in terms of what was read.
* **`enter_outcome_iff`**: a line is accepted exactly if it is a word of the grammar with as many names
  as expressions, whose names are fresh and not called on the line.
* **`enters`**: what any line does to a session.
* **`adds_enter`**: what an accepted line adds.
-/

namespace EvalOrder

open Grammar

/-- The line may stand behind lines that define `defined`: it is a word of the grammar, has as many names as
expressions, its names are fresh, and it calls none of them. -/
structure Accepts (defined : List String) (line : String) : Prop where
  declares : ∃ names sums, Declares line names sums ∧ names.length = sums.length
  nodup : (declaredNames line).Nodup
  fresh : ∀ x ∈ declaredNames line, x ∉ defined
  apart : ∀ x ∈ calledNames line, x ∉ declaredNames line

namespace Graph

/-- The formula is that of the line. -/
structure Shows (g : Graph) (f : Handle) (line : String) (v : Vertex) : Prop where
  vertex : g.vertices[f]? = some v
  name : v.name = unindented line
  declared : (declaredNames line).map g.find? = v.declared.map some
  called : (distinct (calledNames line)).map g.find? = v.called.map some

/-- The formula is one of that label for what was read of a line. -/
structure Records (g : Graph) (f : Handle) (label : String) (r : Reading) (v : Vertex) : Prop where
  vertex : g.vertices[f]? = some v
  name : v.name = label
  declared : r.names.map g.find? = v.declared.map some
  called : (distinct r.expressions.flatten).map g.find? = v.called.map some

/-- Names keep their handles and formulas their vertices. -/
structure Grows (g g' : Graph) : Prop where
  find? : ∀ {x h}, g.find? x = some h → g'.find? x = some h
  vertices : ∀ f ∈ g.formulas, g'.vertices[f]? = g.vertices[f]?

theorem Grows.map_find? {g g' : Graph} (h : g.Grows g') {xs : List String} {hs : List Handle}
    (hx : xs.map g.find? = hs.map some) : xs.map g'.find? = hs.map some :=
  map_find?_of_keeps h.find? hx

/-- A formula goes on being that of its line. -/
theorem Shows.grows {g g' : Graph} {f : Handle} {line : String} {v : Vertex} (h : g.Shows f line v)
    (hf : f ∈ g.formulas) (hg : g.Grows g') : g'.Shows f line v where
  vertex := (hg.vertices f hf).trans h.vertex
  name := h.name
  declared := hg.map_find? h.declared
  called := hg.map_find? h.called

theorem Records.grows {g g' : Graph} {f : Handle} {label : String} {r : Reading} {v : Vertex}
    (h : g.Records f label r v) (hf : f ∈ g.formulas) (hg : g.Grows g') : g'.Records f label r v where
  vertex := (hg.vertices f hf).trans h.vertex
  name := h.name
  declared := hg.map_find? h.declared
  called := hg.map_find? h.called

theorem Grows.trans {g g' g'' : Graph} (h : g.Grows g') (h' : g'.Grows g'')
    (hsub : g.formulas ⊆ g'.formulas) : g.Grows g'' where
  find? hx := h'.find? (h.find? hx)
  vertices f hf := (h'.vertices f (hsub hf)).trans (h.vertices f hf)

theorem Extends.grows {g g' : Graph} (h : g.Extends g') (hg : g.WellFormed) : g.Grows g' where
  find? := h.find?
  vertices f hf := by
    obtain ⟨v, hv⟩ := exists_vertex (hg.inRange f hf)
    rw [hv, h.vertices hv]

theorem vertices_addEdges_of_ne {g : Graph} {edges : List (Handle × Handle)} {h : Handle}
    (hne : ∀ e ∈ edges, e.1 ≠ h) : (g.addEdges edges).vertices[h]? = g.vertices[h]? := by
  have hnone : edges.filter (·.1 = h) = [] :=
    List.filter_eq_nil_iff.mpr fun e he => by simpa using hne e he
  rw [vertices_addEdges, hnone]
  cases g.vertices[h]? <;> simp

/-- Edges between names. -/
theorem grows_addEdges {g : Graph} (hg : g.WellFormed) {edges : List (Handle × Handle)}
    (h : ∀ e ∈ edges, g.IsName e.1) : g.Grows (g.addEdges edges) where
  find? hx := (find?_addEdges g edges _).trans hx
  vertices f hf := vertices_addEdges_of_ne fun e he hef => hg.apart f hf (hef ▸ h e he)

theorem grows_addFormula {g : Graph} (hg : g.WellFormed) (label : String) (declared : List Handle)
    (calls : List (List Handle)) : g.Grows (g.addFormula label declared calls).2 where
  find? hx := hx
  vertices f hf := by rw [vertices_addFormula, if_neg (Nat.ne_of_lt (hg.inRange f hf))]

end Graph

namespace Session

/-! ## In terms of what was read -/

/-- A line calls no handle of its own exactly if it calls no name of its own. -/
theorem callPairs_apart_iff {s : Session} (hs : s.graph.Named) {c : Cursor}
    (hlen : (s.declaring c).length = (s.calling c).length) :
    (∀ p ∈ callPairs (s.declaring c) (s.calling c), p.2 ∉ s.declaring c) ↔
      ∀ x ∈ (s.reading c).expressions.flatten, x ∉ (s.reading c).names := by
  obtain ⟨hnamed, hdeclared, hcalls⟩ := noted_names hs c
  constructor
  · intro hapart x hx hmem
    obtain ⟨ns, hns, hxns⟩ := List.mem_flatten.mp hx
    obtain ⟨group, hgroup, hfind⟩ := exists_of_mem_right hcalls.flip hns
    obtain ⟨h, hh, hxh⟩ := Graph.exists_handle hfind (mem_distinct.mpr hxns)
    obtain ⟨a, ha⟩ := exists_mem_callPairs hlen hgroup hh
    obtain ⟨h', hh', hxh'⟩ := Graph.exists_handle hdeclared hmem
    obtain rfl : h = h' := Option.some.inj (hxh.symm.trans hxh')
    exact hapart _ ha hh'
  · intro hapart ⟨a, b⟩ hp hb
    obtain ⟨-, group, hgroup, hbg⟩ := mem_callPairs hp
    obtain ⟨ns, hns, hfind⟩ := exists_of_mem_right hcalls hgroup
    obtain ⟨x, hx, hxb⟩ := Graph.exists_name hfind hbg
    obtain ⟨y, hy, hyb⟩ := Graph.exists_name hdeclared hb
    obtain rfl := hnamed.injective hxb hyb
    exact hapart x (List.mem_flatten.mpr ⟨ns, hns, mem_distinct.mp hx⟩) hy

theorem length_declaring {s : Session} (hs : s.graph.Named) (c : Cursor) :
    (s.declaring c).length = (s.reading c).names.length := by
  obtain ⟨-, hdeclared, -⟩ := noted_names hs c
  simpa [declaring] using (congrArg List.length hdeclared).symm

theorem length_calling {s : Session} (hs : s.graph.Named) (c : Cursor) :
    (s.calling c).length = (s.reading c).expressions.length := by
  obtain ⟨-, -, hcalls⟩ := noted_names hs c
  exact hcalls.length_eq.symm

/-- A line at whose front no token stands says nothing. -/
theorem reading_of_head_error (s : Session) {c : Cursor} {e : Failure} (h : (Lexed.ofCursor c).head = .error e) :
    s.reading c = ⟨[], [], .error e⟩ := by
  rw [reading]
  cases hc : Lexed.ofCursor c with
  | token t rest => rw [hc] at h; cases h
  | done t => rw [hc] at h; cases h
  | broken e' =>
    rw [hc] at h
    obtain rfl := Except.error.inj h
    rfl

/-- A line is accepted if it is read to the end of its text, has as many names as expressions, and calls
none of them. -/
theorem enter_eq_ok_iff {s : Session} (hs : s.graph.WellFormed) (c : Cursor) :
    (s.enter c).outcome = .ok () ↔
      (∃ finish, (s.reading c).outcome = .ok finish ∧ finish.tag = .endOfText) ∧
        (s.reading c).names.length = (s.reading c).expressions.length ∧
        ∀ x ∈ (s.reading c).expressions.flatten, x ∉ (s.reading c).names := by
  have hapart := callPairs_apart_iff (c := c) hs.named
  have hway := way_enter hs.named c
  rw [← length_declaring hs.named, ← length_calling hs.named]
  generalize s.enter c = entry at hway ⊢
  cases hway with
  | noToken hhead =>
    rw [s.reading_of_head_error hhead]
    simp
  | unread _ hout =>
    refine iff_of_false (fun h => by cases h) ?_
    rintro ⟨⟨finish, hout', _⟩, _⟩
    rw [hout] at hout'
    cases hout'
  | unmatched _ _ hlen =>
    exact iff_of_false (fun h => by cases h) fun ⟨_, hlen', _⟩ => hlen hlen'
  | @circular first finish pre post a b v w _ _ hlen hpairs _ hb _ _ =>
    refine iff_of_false (fun h => by cases h) ?_
    rintro ⟨_, _, hnames⟩
    exact (hapart hlen).mpr hnames (a, b) (by simp [hpairs]) hb
  | @formula first finish _ hout hlen hnames =>
    by_cases htag : finish.tag = .endOfText
    · simp only [htag, if_true]
      exact iff_of_true trivial ⟨⟨finish, hout, htag⟩, hlen, (hapart hlen).mp hnames⟩
    · simp only [htag, if_false]
      refine iff_of_false (fun h => by cases h) ?_
      rintro ⟨⟨finish', hout', htag'⟩, _⟩
      obtain rfl := Except.ok.inj (hout.symm.trans hout')
      exact htag htag'

/-! ## In terms of the line -/

/-- What is read in a line that is read to the end of its text. -/
theorem reading_eq_iff (s : Session) {c : Cursor} {line : String} (hc : IsLineCursor c line)
    {ns : List String} {groups : List (List String)} :
    (∃ finish, s.reading c = ⟨ns, groups, .ok finish⟩ ∧ finish.tag = .endOfText) ↔
      ns.Nodup ∧ (∀ n ∈ ns, n ∉ s.defined) ∧ ∃ sums, Declares line ns sums ∧ groups = sums.map idents := by
  have hproper := proper_ofCursor hc.bounded
  constructor
  · rintro ⟨finish, hread⟩
    obtain ⟨hlex, -, hnodup, hfresh, sums, hline, rfl⟩ := (Reading.ofLexed_endOfText_iff hproper).mp hread
    exact ⟨hnodup, hfresh, sums, ⟨hc.failure?.mp hlex, hc.words ▸ hline⟩, rfl⟩
  · rintro ⟨hnodup, hfresh, sums, hdeclares, rfl⟩
    have hlex := hc.failure?.mpr hdeclares.lexes
    obtain ⟨ts, t, hts⟩ := Lexed.eq_prepend_done hlex
    have hend : (Lexed.ofCursor c).end? = some t := by rw [hts, Lexed.end?_prepend, Lexed.end?]
    exact ⟨t, (Reading.ofLexed_endOfText_iff hproper).mpr
      ⟨hlex, hend, hnodup, hfresh, sums, hc.words ▸ hdeclares.derives, rfl⟩⟩

/-- **When a line is accepted.** -/
theorem enter_outcome_iff {s : Session} (hs : s.graph.WellFormed) {c : Cursor} {line : String}
    (hc : IsLineCursor c line) : (s.enter c).outcome = .ok () ↔ Accepts s.defined line := by
  rw [enter_eq_ok_iff hs]
  constructor
  · rintro ⟨⟨finish, hout, htag⟩, hlen, hapart⟩
    obtain ⟨hnodup, hfresh, sums, hdeclares, hgroups⟩ := (s.reading_eq_iff hc).mp
      ⟨finish, (by rw [← hout] : s.reading c = ⟨(s.reading c).names, (s.reading c).expressions, _⟩), htag⟩
    rw [hgroups, List.length_map] at hlen
    rw [hgroups, ← hdeclares.calledNames_eq] at hapart
    have hnames := hdeclares.declaredNames_eq
    exact ⟨⟨_, sums, hdeclares, hlen⟩, hnames ▸ hnodup, hnames ▸ hfresh, hnames ▸ hapart⟩
  · rintro ⟨⟨names, sums, hdeclares, hlen⟩, hnodup, hfresh, hapart⟩
    obtain rfl := hdeclares.declaredNames_eq
    obtain ⟨finish, hread, htag⟩ :=
      (s.reading_eq_iff hc).mpr ⟨hnodup, hfresh, sums, hdeclares, rfl⟩
    rw [hdeclares.calledNames_eq] at hapart
    rw [hread]
    exact ⟨⟨finish, rfl, htag⟩, by rw [List.length_map, hlen], hapart⟩

/-! ## What an accepted line adds -/

/-- What an accepted line adds to a session. -/
structure Adds (s s' : Session) (line : String) : Prop where
  defined : s'.defined = s.defined ++ declaredNames line
  called : s'.called = addAll s.called (calledNames line)
  grows : s.graph.Grows s'.graph
  formula : ∃ f v, s'.graph.formulas = s.graph.formulas ++ [f] ∧ s'.graph.Shows f line v ∧ v.related = []

/-- The handles of the calls of a line, each once. -/
theorem distinct_calling {s : Session} (hs : s.graph.WellFormed) (c : Cursor) :
    (distinct (s.reading c).expressions.flatten).map (s.noted c).graph.find? =
      (distinct (s.calling c).flatten).map some := by
  obtain ⟨hwf, -, -, hcalls, -⟩ := noted_spec hs c
  have hflat : ∀ {groups : List (List String)} {calls : List (List Handle)},
      List.Forall₂ (fun ns hs => (distinct ns).map (s.noted c).graph.find? = hs.map some) groups calls →
        (groups.map distinct).flatten.map (s.noted c).graph.find? = calls.flatten.map some := by
    intro groups calls h
    induction h with
    | nil => rfl
    | cons hgroup _ ih =>
      rw [List.map_cons, List.flatten_cons, List.map_append, hgroup, ih, List.flatten_cons, List.map_append]
  rw [← distinct_flatten]
  exact hwf.named.distinct_find? (hflat hcalls)

/-- The graph grows by the formula of a line. -/
theorem grows_formula {s : Session} (hs : s.WellFormed) (c : Cursor) (label : String) :
    s.graph.Grows (((s.noted c).graph.addEdges (callPairs (s.declaring c) (s.calling c))).addFormula label
      (s.declaring c) (s.calling c)).2 := by
  obtain ⟨hwf, hext, -⟩ := noted_spec hs.graph c
  have hedges := (hs.noted c).graph.addEdges fun p hp => mayRelate_of_callPairs hs c hp
  have hrelated := Graph.grows_addEdges hwf fun p hp => (isName_of_callPairs hs.graph.named c hp).1
  have hformulas := (Graph.addEdges_keeps (callPairs (s.declaring c) (s.calling c))
    (s.noted c).graph).2.2
  refine ((hext.grows hs.graph).trans hrelated ?_).trans (Graph.grows_addFormula hedges _ _ _) ?_
  · exact hext.formulas ▸ List.Subset.refl _
  · rw [hformulas, hext.formulas]
    exact List.Subset.refl _

/-- What entering a line does to a session, whatever comes of it: what was read of it is noted, and it may have made a
formula. -/
structure Enters (s : Session) (c : Cursor) (entry : Entry) : Prop where
  defined : entry.session.defined = s.defined ++ (s.reading c).names
  called : entry.session.called = addAll s.called (s.reading c).expressions.flatten
  grows : s.graph.Grows entry.session.graph
  unformed : entry.declaration = none → entry.session.graph.formulas = s.graph.formulas
  formed : ∀ d, entry.declaration = some d → ∃ f v, entry.session.graph.formulas = s.graph.formulas ++ [f] ∧
    entry.session.graph.Records f d.label (s.reading c) v ∧ v.related = []

/-- **What any line does.** -/
theorem enters {s : Session} (hs : s.WellFormed) (c : Cursor) : Enters s c (s.enter c) := by
  obtain ⟨hwf, hext, hdeclared, -, hdefined, hcalled⟩ := noted_spec hs.graph c
  have hcalls := distinct_calling hs.graph c
  have hway := way_enter hs.graph.named c
  generalize s.enter c = entry at hway ⊢
  cases hway with
  | noToken hhead =>
    have hread := s.reading_of_head_error hhead
    refine ⟨?_, ?_, ⟨id, fun _ _ => rfl⟩, fun _ => rfl, fun _ h => by cases h⟩
    · rw [hread, List.append_nil]
    · rw [hread]
      rfl
  | unread _ _ => exact ⟨hdefined, hcalled, hext.grows hs.graph, fun _ => hext.formulas, fun _ h => by cases h⟩
  | unmatched _ _ _ => exact ⟨hdefined, hcalled, hext.grows hs.graph, fun _ => hext.formulas, fun _ h => by cases h⟩
  | @circular _ _ pre post a b _ _ _ _ _ hpairs _ _ _ _ =>
    have hedges : ∀ e ∈ pre ++ [(a, b)], (s.noted c).graph.IsName e.1 := fun e he =>
      (isName_of_callPairs hs.graph.named c (hpairs ▸ List.append_cons pre (a, b) post ▸ List.mem_append_left _ he)).1
    have hformulas := (Graph.addEdges_keeps (pre ++ [(a, b)]) (s.noted c).graph).2.2
    refine ⟨hdefined, hcalled, ?_, fun _ => hformulas.trans hext.formulas, fun _ h => by cases h⟩
    exact (hext.grows hs.graph).trans (Graph.grows_addEdges hwf hedges) (hext.formulas ▸ List.Subset.refl _)
  | @formula first finish _ _ _ _ =>
    have hgrows := grows_formula hs c (labelOf first finish)
    generalize callPairs (s.declaring c) (s.calling c) = pairs at hgrows
    obtain ⟨hsize, -, hformulas⟩ := Graph.addEdges_keeps pairs (s.noted c).graph
    have hfind : ∀ x, (((s.noted c).graph.addEdges pairs).addFormula (labelOf first finish)
        (s.declaring c) (s.calling c)).2.find? x = (s.noted c).graph.find? x := fun x =>
      Graph.find?_addEdges _ _ x
    refine ⟨hdefined, hcalled, hgrows, fun h => (by cases h), fun d hd => ?_⟩
    obtain rfl := Option.some.inj hd
    refine ⟨(s.noted c).graph.size, ((s.noted c).graph.addEdges pairs).formulaVertex
      (labelOf first finish) (s.declaring c) (s.calling c), ?_, ⟨?_, rfl, ?_, ?_⟩, rfl⟩
    · rw [Graph.addFormula_eq, hsize, hformulas, hext.formulas]
    · rw [Graph.vertices_addFormula, if_pos hsize.symm]
    · exact (List.map_congr_left fun x _ => hfind x).trans hdeclared
    · exact (List.map_congr_left fun x _ => hfind x).trans hcalls

/-- **What an accepted line adds.** -/
theorem adds_enter {s : Session} (hs : s.WellFormed) {c : Cursor} {line : String}
    (hc : IsLineCursor c line) (h : (s.enter c).outcome = .ok ()) : Adds s (s.enter c).session line := by
  obtain ⟨hdefined, hcalled, hgrows, -, hformed⟩ := enters hs c
  have hway := way_enter hs.graph.named c
  generalize s.enter c = entry at hway h hdefined hcalled hgrows hformed ⊢
  cases hway with
  | noToken _ => cases h
  | unread _ _ => cases h
  | unmatched _ _ _ => cases h
  | circular _ _ _ _ _ _ _ _ => cases h
  | @formula first finish hhead hout hlen _ =>
    have htag : finish.tag = .endOfText := by
      by_contra htag
      simp only [htag, if_false] at h
      cases h
    have hread : s.reading c = ⟨(s.reading c).names, (s.reading c).expressions, .ok finish⟩ := by
      rw [← hout]
    obtain ⟨-, -, sums, hdeclares, hgroups⟩ := (s.reading_eq_iff hc).mp ⟨finish, hread, htag⟩
    have hend := ((Reading.ofLexed_endOfText_iff (proper_ofCursor hc.bounded)).mp ⟨hread, htag⟩).2.1
    have hlabel := labelOf_eq hc hhead hend
    have hnames := hdeclares.declaredNames_eq
    have hmentioned : calledNames line = (s.reading c).expressions.flatten := by
      rw [hdeclares.calledNames_eq, hgroups]
    obtain ⟨f, v, hformulas, hrecords, hrelated⟩ := hformed _ rfl
    refine ⟨hnames ▸ hdefined, hmentioned ▸ hcalled, hgrows, f, v, hformulas, ?_, hrelated⟩
    exact ⟨hrecords.vertex, hrecords.name.trans hlabel, hnames ▸ hrecords.declared, hmentioned ▸ hrecords.called⟩

end Session

end EvalOrder
