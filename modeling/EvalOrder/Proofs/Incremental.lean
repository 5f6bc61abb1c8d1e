import EvalOrder.Proofs.Relinking
import EvalOrder.Proofs.Stability
import EvalOrder.Proofs.Thinning

/-!
# Reading texts in turn

Texts that a session reads in turn come to what they come to if they are put together and read as one. A text may
call names that only a later one declares; then nothing is linked until a text is read to its end, and its lines
count all the same. Where a text is refused, so is the whole, with the same to say about a place that is as much
further on as the text is in the whole. If the last text is read, the graphs differ in one thing: of a formula that
came with an earlier text the edges are there more than once, so the order is the same.

Results:
* `readFormulas_joined`: reading the whole is reading the last text after the lines of the others.
* `exists_text`: the text that a formula comes with.
* `repeats_afterTexts`: the graph after all texts.
* **`read_after_texts`**: texts in turn, and the whole.
-/

namespace EvalOrder

open EvalOrder.Graph

namespace Session

variable {s : Session} {text : String} {texts : List String}

/-- Each text is read, or else nothing is wrong with it but undeclared names. -/
def GoesOn (s : Session) (texts : List String) : Prop :=
  ∀ i ∈ s.intakes texts, ∀ e, i.outcome = .error e → e.Undeclares

/-- How many of the texts are read. -/
def successes (s : Session) (texts : List String) : Nat := (s.intakes texts).countP (·.outcome.isOk)

/-! ## Without links -/

theorem afterTexts_append (s : Session) (texts more : List String) :
    s.afterTexts (texts ++ more) = (s.afterTexts texts).afterTexts more :=
  List.foldl_append

theorem entersAll_append {more : List String} :
    s.EntersAll (texts ++ more) ↔ s.EntersAll texts ∧ (s.afterTexts texts).EntersAll more := by
  induction texts generalizing s with
  | nil => simp [EntersAll, afterTexts]
  | cons text texts ih => simp only [List.cons_append, EntersAll, ih, and_assoc]; rfl

/-- A text that is read, or has nothing wrong but undeclared names, has its lines entered. -/
theorem enterText_ok (h : ∀ e, (s.read text).outcome = .error e → e.Undeclares) : (s.enterText text).2.2 = .ok () := by
  cases hout : (s.enterText text).2.2 with
  | ok u => rfl
  | error e =>
    have hread : (s.read text).outcome = .error e := by rw [read_of_error hout]
    exact absurd (h e hread) (s.enterAll_not_undeclares (fun c hc => bounded_of_mem_lineCursors hc) hout)

theorem entersAll_of_drafts (h : ∀ i ∈ s.drafts texts, ∀ e, i.outcome = .error e → e.Undeclares) :
    s.EntersAll texts := by
  induction texts generalizing s with
  | nil => trivial
  | cons text texts ih =>
    obtain ⟨hfirst, hrest⟩ := List.forall_mem_cons.mp h
    exact ⟨enterText_ok hfirst, ih hrest⟩

/-- The links that texts bring to a new session. -/
def links (texts : List String) : List (Handle × Handle) := (drafts {} texts).flatMap Intake.edges

theorem mem_links {e : Handle × Handle} (he : e ∈ links texts) : e.1 ∈ (afterTexts {} texts).graph.formulas :=
  mem_edges_drafts wellFormed_empty he

theorem after_eq (texts : List String) : after {} texts = (afterTexts {} texts).addEdges (links texts) :=
  (@after_addEdges {} wellFormed_empty [] (by simp) texts).1

theorem outcomes_eq (pre texts : List String) :
    ((after {} pre).intakes texts).map Intake.outcome = ((afterTexts {} pre).drafts texts).map Intake.outcome := by
  rw [after_eq]
  exact (after_addEdges (wellFormed_afterTexts wellFormed_empty pre) (fun e he => mem_links he) texts).2

theorem successes_eq (pre texts : List String) :
    (after {} pre).successes texts = ((afterTexts {} pre).drafts texts).countP (·.outcome.isOk) := by
  have hcount := congrArg (List.countP Except.isOk) (outcomes_eq pre texts)
  rwa [List.countP_map, List.countP_map] at hcount

theorem formulas_after (texts : List String) :
    (after {} texts).graph.formulas = (afterTexts {} texts).graph.formulas := by
  rw [after_eq]
  exact (addEdges_keeps _ _).2.2

theorem GoesOn.entersAll (h : GoesOn {} texts) : EntersAll {} texts := by
  refine entersAll_of_drafts fun i hi e he => ?_
  have hout : i.outcome ∈ (intakes {} texts).map Intake.outcome := by
    rw [show (intakes {} texts).map Intake.outcome = _ from outcomes_eq [] texts]
    exact List.mem_map_of_mem hi
  obtain ⟨j, hj, hji⟩ := List.mem_map.mp hout
  exact h j hj e (hji.trans he)

/-! ## The whole -/

/-- **Reading the whole** is reading the last text after the lines of the others. -/
theorem readFormulas_joined (last : String) (h : EntersAll {} texts) :
    readFormulas (String.ofList (joined (texts ++ [last]))) =
      revised (Malformed.moved (joined texts)) (((afterTexts {} texts).read last).outcome.map fun _ =>
        ((afterTexts {} texts).read last).session.graph) := by
  have hwhole : terminated (String.ofList (joined (texts ++ [last]))).toList = joined (texts ++ [last]) := by
    rw [String.toList_ofList, terminated_joined (by simp)]
  have hplace : Place.afterAll {} (joined (texts ++ [last])) =
      (Place.afterAll {} (terminated last.toList)).moved (joined texts) := by
    rw [joined, List.flatMap_append, Place.afterAll_append, List.flatMap_singleton]
    rw [show (texts.flatMap fun t => terminated t.toList) = joined texts from rfl,
      Place.afterAll_joined {} rfl, Place.afterAll_moved]
  obtain ⟨hsession, hout⟩ := enterAll_joined last h
  rw [readFormulas_eq, afterLines, hwhole, hsession, hout, hplace]
  cases hlast : ((afterTexts {} texts).enterText last).2.2 with
  | error e =>
    rw [read_of_error hlast]
    rfl
  | ok u =>
    by_cases hnil : ((afterTexts {} texts).enterText last).1.undefined = []
    · rw [read_of_linked hlast hnil]
      simp [hnil, Except.map]
    · rw [read_of_undefined hlast hnil]
      simp [hnil, Except.map, Failure.revise, Malformed.moved]

/-! ## The formulas of each text -/

/-- The formula comes with `text`, which is read after the texts `pre`. -/
def ComesWith (pre : List String) (text : String) (f : Handle) : Prop :=
  f ∈ (after {} (pre ++ [text])).graph.formulas ∧ f ∉ (after {} pre).graph.formulas

/-- Each formula comes with some text. -/
theorem exists_text {f : Handle} (hf : f ∈ (s.afterTexts texts).graph.formulas) (hnew : f ∉ s.graph.formulas) :
    ∃ pre text post, texts = pre ++ text :: post ∧ f ∈ (s.afterTexts (pre ++ [text])).graph.formulas ∧
      f ∉ (s.afterTexts pre).graph.formulas := by
  induction texts generalizing s with
  | nil => exact absurd hf hnew
  | cons text texts ih =>
    by_cases hfirst : f ∈ (s.enterText text).1.graph.formulas
    · exact ⟨[], text, texts, rfl, hfirst, hnew⟩
    · obtain ⟨pre, later, post, rfl, hcomes, hbefore⟩ := ih hf hfirst
      exact ⟨text :: pre, later, post, rfl, hcomes, hbefore⟩

theorem exists_comesWith {f : Handle} (hf : f ∈ (afterTexts {} texts).graph.formulas) :
    ∃ pre text post, texts = pre ++ text :: post ∧ ComesWith pre text f := by
  obtain ⟨pre, text, post, htexts, hcomes, hbefore⟩ := exists_text hf List.not_mem_nil
  rw [← formulas_after] at hcomes hbefore
  exact ⟨pre, text, post, htexts, hcomes, hbefore⟩

/-- The graph of texts read in turn, against that of the whole. -/
structure Repeats (texts : List String) (whole inTurn : Graph) : Prop where
  names : inTurn.names = whole.names
  formulas : inTurn.formulas = whole.formulas
  size : inTurn.size = whole.size
  /-- What is no formula is the same, -/
  related : ∀ h : Handle, h ∉ whole.formulas → inTurn.vertices[h]? = whole.vertices[h]?
  /-- each formula comes with some text, -/
  comes : ∀ f ∈ whole.formulas, ∃ pre text post, texts = pre ++ text :: post ∧ ComesWith pre text f
  /-- and depends on the same formulas, as often as that text and later ones were read. -/
  repeated : ∀ pre text post, texts = pre ++ text :: post → ∀ f, ComesWith pre text f →
    ∃ v, whole.vertices[f]? = some v ∧ inTurn.vertices[f]? = some { v with
      related := (List.replicate ((after {} pre).successes (text :: post)) v.related).flatten }
  order : inTurn.order.2 = whole.order.2
  ranks : ∀ h : Handle, inTurn.order.1.rankOf h = whole.order.1.rankOf h

section Comes

variable {pre post : List String} {f : Handle}

theorem ComesWith.mem (hf : ComesWith pre text f) (post : List String) :
    f ∈ (afterTexts {} (pre ++ text :: post)).graph.formulas := by
  obtain ⟨hcomes, -⟩ := hf
  rw [formulas_after] at hcomes
  rw [List.append_cons, afterTexts_append]
  exact formulas_subset_afterTexts (wellFormed_afterTexts wellFormed_empty _) post hcomes

/-- The links of a formula that comes with one of the texts. -/
theorem filter_links (h : EntersAll {} (pre ++ text :: post)) (hf : ComesWith pre text f) {g : Graph}
    (hg : (afterTexts {} (pre ++ text :: post)).graph = g) :
    ((links (pre ++ text :: post)).filter (·.1 = f)).map Prod.snd =
      (List.replicate ((after {} pre).successes (text :: post)) (g.targets g.owners f)).flatten := by
  obtain ⟨hpre, hpost⟩ := entersAll_append.mp h
  obtain ⟨hcomes, hbefore⟩ := hf
  rw [formulas_after] at hcomes hbefore
  rw [afterTexts_append] at hcomes hg
  -- the links of the texts before start at other formulas
  have hnone : (links pre).filter (·.1 = f) = [] := by
    refine List.filter_eq_nil_iff.mpr fun e he => ?_
    have hne : e.1 ≠ f := fun hef => hbefore (hef ▸ mem_links he)
    simpa using hne
  have hfirst : ∀ first ∈ (text :: post).head?, f ∈ ((afterTexts {} pre).enterText first).1.graph.formulas := by
    intro first hfirst
    obtain rfl := Option.some.inj hfirst
    exact hcomes
  rw [links, drafts_append, List.flatMap_append, List.filter_append, ← links, hnone, List.nil_append,
    filter_drafts (holds_afterTexts holds_empty hpre) hpost hfirst, successes_eq, hg]

/-- What a formula depends on that comes with one of the texts. -/
theorem repeated_afterTexts (h : EntersAll {} (pre ++ text :: post)) (hf : ComesWith pre text f) :
    ∃ v, (afterTexts {} (pre ++ text :: post)).graph.link.vertices[f]? = some v ∧
      (after {} (pre ++ text :: post)).graph.vertices[f]? = some { v with
        related := (List.replicate ((after {} pre).successes (text :: post)) v.related).flatten } := by
  have hholds := holds_afterTexts holds_empty h
  have hmem := hf.mem post
  obtain ⟨line, -, w, hw, hrelated⟩ := exists_of_mem_right hholds.formulas.flip hmem
  have hnodup := hholds.wellFormed.graph.ascending.imp Nat.ne_of_lt
  refine ⟨_, by rw [Graph.link, vertices_addEdges, hw.vertex, Option.map_some], ?_⟩
  rw [after_eq, graph_addEdges, vertices_addEdges, hw.vertex, Option.map_some, filter_links h hf rfl, hrelated,
    filter_linkEdges hnodup, if_pos hmem]
  simp

end Comes

/-- If the last text is read, one of the later ones is. -/
theorem successes_pos {pre post : List String} {last : Intake}
    (hlast : (drafts {} (pre ++ text :: post)).getLast? = some last) (hok : last.outcome = .ok ()) :
    0 < (after {} pre).successes (text :: post) := by
  rw [drafts_append, drafts, List.getLast?_append_cons] at hlast
  rw [successes_eq, List.countP_pos_iff]
  exact ⟨last, List.mem_of_getLast? hlast, by rw [hok]; rfl⟩

/-- The vertices of names. -/
theorem vertices_after {i : Handle} (hi : i ∉ (afterTexts {} texts).graph.formulas) :
    (after {} texts).graph.vertices[i]? = (afterTexts {} texts).graph.link.vertices[i]? := by
  have hnone : ∀ e ∈ links texts, e.1 ≠ i := fun e he hei => hi (hei ▸ mem_links he)
  have hnone' : ∀ e ∈ (afterTexts {} texts).graph.linkEdges, e.1 ≠ i := by
    rintro e he rfl
    exact hi (mem_linkEdges.mp he).1
  rw [after_eq, graph_addEdges, Graph.link, vertices_addEdges_of_ne hnone, vertices_addEdges_of_ne hnone']

/-- With each edge once, all is the same. -/
theorem thin_after (h : EntersAll {} texts) {last : Intake} (hlast : (drafts {} texts).getLast? = some last)
    (hok : last.outcome = .ok ()) : (after {} texts).graph.thin = (afterTexts {} texts).graph.link.thin := by
  have hkeeps := addEdges_keeps (links texts) (afterTexts {} texts).graph
  rw [← graph_addEdges, ← after_eq] at hkeeps
  refine eq_of_vertices (fun i => ?_) (hkeeps.2.1.trans (names_link _).symm) (hkeeps.2.2.trans (formulas_link _).symm)
  rw [vertices_thin, vertices_thin]
  by_cases hi : i ∈ (afterTexts {} texts).graph.formulas
  · obtain ⟨pre, text, post, rfl, hf⟩ := exists_comesWith hi
    obtain ⟨v, hv, hv'⟩ := repeated_afterTexts h hf
    obtain ⟨n, hn⟩ := Nat.exists_eq_succ_of_ne_zero (successes_pos hlast hok).ne'
    rw [hv, hv', hn]
    simp [Vertex.thin, distinct_flatten_replicate]
  · rw [vertices_after hi]

/-- **The graph after all texts**, if the last of them is read. -/
theorem repeats_afterTexts (h : EntersAll {} texts) {last : Intake} (hlast : (drafts {} texts).getLast? = some last)
    (hok : last.outcome = .ok ()) : Repeats texts (afterTexts {} texts).graph.link (after {} texts).graph := by
  have hwf := wellFormed_afterTexts wellFormed_empty texts
  have hwf' := (lives_empty.after texts).1
  obtain ⟨hsize, hnames, hformulas⟩ := addEdges_keeps (links texts) (afterTexts {} texts).graph
  rw [← graph_addEdges, ← after_eq] at hsize hnames hformulas
  obtain ⟨horder, hranks⟩ := order_eq_of_thin_eq (hwf'.graph.linked hwf'.unsearched)
    (fun _ _ => hwf'.graph.edge_lt) (hwf.graph.link.linked (hwf.unsearched.addEdges _))
    (fun _ _ => hwf.graph.link.edge_lt) (thin_after h hlast hok)
  constructor
  case names => exact hnames.trans (names_link _).symm
  case formulas => exact hformulas.trans (formulas_link _).symm
  case size => exact hsize.trans (size_link _).symm
  case related => exact fun i hi => vertices_after (formulas_link _ ▸ hi)
  case comes => exact fun f hf => exists_comesWith (formulas_link _ ▸ hf)
  case repeated =>
    rintro pre text post rfl f hf
    exact repeated_afterTexts h hf
  case order => exact horder
  case ranks => exact hranks

/-- **Texts in turn, and the whole.** If nothing is wrong with the texts before but undeclared names, the last is
read just if the whole is. If it is refused, so is the whole, and the same is said of the place that is as much
further on; if it is read, the graphs are the same but for repeated edges. -/
theorem read_after_texts {texts : List String} (h : GoesOn {} texts) (last : String) :
    (((after {} texts).read last).outcome = .ok () ↔
      ∃ g, readFormulas (String.ofList (joined (texts ++ [last]))) = .ok g) ∧
    (∀ e, ((after {} texts).read last).outcome = .error e →
      readFormulas (String.ofList (joined (texts ++ [last]))) =
        .error (e.revise (Malformed.moved (joined texts)))) ∧
    ∀ g, readFormulas (String.ofList (joined (texts ++ [last]))) = .ok g →
      Repeats (texts ++ [last]) g ((after {} texts).read last).session.graph := by
  have hout : ((after {} texts).read last).outcome = ((afterTexts {} texts).read last).outcome :=
    List.head_eq_of_cons_eq (outcomes_eq texts [last])
  have hafter : ((after {} texts).read last).session = after {} (texts ++ [last]) := by
    simp [after, List.foldl_append]
  have hdrafts : drafts {} (texts ++ [last]) = drafts {} texts ++ [(afterTexts {} texts).read last] :=
    drafts_append {} texts [last]
  rw [readFormulas_joined last h.entersAll, hout, hafter]
  rcases (afterTexts {} texts).read_cases last with ⟨hok, hlines, hnil, -⟩ | ⟨⟨e, herror⟩, -⟩
  · rw [hok]
    refine ⟨by simp [Except.map], by simp, fun g hg => ?_⟩
    have henters : EntersAll {} (texts ++ [last]) := entersAll_append.mpr ⟨h.entersAll, hlines, trivial⟩
    have hlink : ((afterTexts {} texts).read last).session.graph = (afterTexts {} (texts ++ [last])).graph.link := by
      rw [read_of_linked hlines hnil, afterTexts_append]
      rfl
    obtain rfl := Except.ok.inj hg
    rw [hlink]
    exact repeats_afterTexts henters (by rw [hdrafts, List.getLast?_concat]) hok
  · rw [herror]
    refine ⟨by simp [Except.map], fun e' he => ?_, by simp [Except.map]⟩
    obtain rfl := Except.error.inj he
    rfl

/-- The text `b=a` waits for `a=1`, and its formula is linked again with `c=b`. -/
theorem read_after_two_texts :
    GoesOn {} ["b=a", "a=1"] ∧ ∃ g, readFormulas "b=a\na=1\nc=b\n" = .ok g ∧
      Repeats ["b=a", "a=1", "c=b"] g ((after {} ["b=a", "a=1"]).read "c=b").session.graph ∧
      ((after {} ["b=a", "a=1"]).read "c=b").session.graph.relatedOf 2 = [3, 3] := by
  have hout : (intakes {} ["b=a", "a=1"]).map Intake.outcome =
      [.error (.malformed ⟨⟨4, 2, 1⟩, .undefined ["a"]⟩), .ok ()] := by decide +kernel
  have hgoes : GoesOn {} ["b=a", "a=1"] := by
    intro i hi e he
    have hmem : i.outcome ∈ (intakes {} ["b=a", "a=1"]).map Intake.outcome := List.mem_map_of_mem hi
    rw [hout, he] at hmem
    obtain rfl : e = .malformed ⟨⟨4, 2, 1⟩, .undefined ["a"]⟩ := by simpa using hmem
    exact ⟨_, _, rfl⟩
  have hwhole : String.ofList (joined (["b=a", "a=1"] ++ ["c=b"])) = "b=a\na=1\nc=b\n" := by decide +kernel
  obtain ⟨hiff, -, hrepeats⟩ := read_after_texts hgoes "c=b"
  rw [hwhole] at hiff hrepeats
  obtain ⟨g, hg⟩ := hiff.mp (by decide +kernel)
  exact ⟨hgoes, g, hg, hrepeats g hg, by decide +kernel⟩

end Session

end EvalOrder
