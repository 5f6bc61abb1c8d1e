import EvalOrder.Proofs.Drawing
import EvalOrder.Proofs.PairScan

/-!
# The arena of a text

What the graph of an accepted text looks like, vertex by vertex, told from its lines alone. Each line marks its
names, as far as they are new, in the order they are mentioned, and then itself (`arena`). The graph is drawn from
these marks, and `vertexOf` says what the vertices hold.

Results:
* `flatten_expressionNames`, `Declares.expressionNames_eq`: the names of the expressions of a line.
* `draft_line_concat`, `draft_name_concat`: what one more line changes.
* `addLine_draw`, `draws_enter`, `draws_enterAll`: an accepted line draws its marks, and so do lines.
* `link_draw`: linking relates lines to those that declare a name they call.
* **`readFormulas_eq_draw`**: the graph of an accepted text is drawn from its lines.
-/

namespace EvalOrder

open Grammar

/-- The names that a marked line declares. -/
def Mark.declares : Mark → List String
  | name _ => []
  | line l => declaredNames l

/-- The names of a line in the order they are mentioned. -/
def lineNames (line : String) : List String := declaredNames line ++ calledNames line

/-- The names that each expression of a line mentions: expressions are what commas separate behind the first equals
sign. -/
def expressionNames (line : String) : List (List String) :=
  (((lexed line).words.dropWhile fun w => w.tag ≠ .equalSign).tail.splitOnP fun w => w.tag = .comma).map idents

/-- The marks before a line, and those of its names that are new. -/
def markNames (marks : List Mark) (line : String) : List Mark := addAll marks ((lineNames line).map .name)

/-- The marks before a line, those of its names that are new, and that of the line. -/
def markLine (marks : List Mark) (line : String) : List Mark := markNames marks line ++ [.line line]

/-- The marks of lines. -/
def arena (ls : List String) : List Mark := ls.foldl markLine []

/-- Declared names, each with the names that its expression mentions. -/
def bindings (ls : List String) : Table String (List String) :=
  ls.flatMap fun line => (declaredNames line).zip (expressionNames line)

/-- The names that the expression of a name mentions, each once. -/
def callsOf (ls : List String) (x : String) : List String := distinct (((bindings ls).get? x).getD [])

/-- The other lines that declare a name which a line calls, in the order of their places. -/
def callees (marks : List Mark) (h : Handle) (line : String) : List Handle :=
  (linePlaces marks).filter fun k => k ≠ h ∧ ∃ x ∈ (marks[k]?.map Mark.declares).getD [], x ∈ calledNames line

/-- The vertex of a mark. A name is related to the names that its expression mentions, and a line to the lines that
declare a name it calls. -/
def vertexOf (ls : List String) (h : Handle) : Mark → Vertex
  | .name x => { handle := h, name := x, related := (callsOf ls x).map (place (arena ls)) }
  | .line line =>
    { handle := h
      name := unindented line
      declared := (declaredNames line).map (place (arena ls))
      called := (distinct (calledNames line)).map (place (arena ls))
      related := callees (arena ls) h line }

/-- The vertex of a mark before the lines are linked. -/
def draft (ls : List String) (h : Handle) : Mark → Vertex
  | .name x => vertexOf ls h (.name x)
  | .line line => { vertexOf ls h (.line line) with related := [] }

/-! ## The expressions of a line -/

theorem Table.get?_of_mem {κ ν : Type} [DecidableEq κ] {t : Table κ ν} (h : t.keys.Nodup) {e : κ × ν} (he : e ∈ t) :
    t.get? e.1 = some e.2 := by
  induction t with
  | nil => cases he
  | cons first t ih =>
    obtain ⟨hfirst, hrest⟩ := List.nodup_cons.mp h
    rcases List.mem_cons.mp he with rfl | he
    · exact if_pos rfl
    · have hne : first.1 ≠ e.1 := fun hsame => hfirst (hsame ▸ List.mem_map_of_mem he)
      rw [Table.get?, if_neg hne, ih hrest he]

theorem flatten_splitOnP_idents (ws : List Word) :
    ((ws.splitOnP fun w => w.tag = .comma).map idents).flatten = idents ws := by
  induction ws with
  | nil => simp
  | cons w ws ih =>
    have hcons : idents (w :: ws) = idents [w] ++ idents ws := idents_append [w] ws
    rw [List.splitOnP_cons_eq_if_modifyHead, hcons, ← ih]
    by_cases hw : w.tag = .comma
    · have hnone : idents [w] = [] := idents_cons_of_ne (by simp [hw]) []
      simp [hw, hnone]
    · obtain ⟨part, parts, hparts⟩ := List.exists_cons_of_ne_nil (List.splitOnP_ne_nil (fun w => w.tag = .comma) ws)
      have hpart : idents (w :: part) = idents [w] ++ idents part := idents_append [w] part
      simp [hw, hparts, hpart]

/-- Together the expressions of a line mention the names that the line calls. -/
theorem flatten_expressionNames (line : String) : (expressionNames line).flatten = calledNames line := by
  rw [expressionNames, flatten_splitOnP_idents, calledNames]
  cases hright : (lexed line).words.dropWhile fun w => w.tag ≠ .equalSign with
  | nil => rfl
  | cons e right =>
    have he : e.tag = .equalSign := by
      have hne : (lexed line).words.dropWhile (fun w => w.tag ≠ .equalSign) ≠ [] := hright ▸ List.cons_ne_nil _ _
      have hhead := List.head_dropWhile_not _ hne
      simp only [hright, List.head_cons] at hhead
      simpa using hhead
    rw [List.tail_cons, idents_cons_of_ne (by simp [he])]

mutual

/-- No comma stands in a sum. -/
theorem Grammar.IsSum.tag_ne_comma {ws : List Word} : IsSum ws → ∀ w ∈ ws, w.tag ≠ .comma
  | .mul h => h.tag_ne_comma
  | .sum h hs h' => by
    have hleft := h.tag_ne_comma
    have hright := h'.tag_ne_comma
    simp only [List.forall_mem_append, List.forall_mem_cons]
    exact ⟨hleft, by simp [hs], hright⟩

theorem Grammar.IsMul.tag_ne_comma {ws : List Word} : IsMul ws → ∀ w ∈ ws, w.tag ≠ .comma
  | .var h => h.tag_ne_comma
  | .mul h hs h' => by
    have hleft := h.tag_ne_comma
    have hright := h'.tag_ne_comma
    simp only [List.forall_mem_append, List.forall_mem_cons]
    exact ⟨hleft, by simp [hs], hright⟩

theorem Grammar.IsVar.tag_ne_comma {ws : List Word} : IsVar ws → ∀ w ∈ ws, w.tag ≠ .comma
  | .number ht => by simp [ht]
  | .ident ht => by simp [ht]
  | .brackets hl h hr => by
    have hin := h.tag_ne_comma
    simp only [List.forall_mem_cons, List.forall_mem_append]
    exact ⟨by simp [hl], hin, by simp [hr]⟩
  | .sign hs h => by
    have hin := h.tag_ne_comma
    simp only [List.forall_mem_cons]
    exact ⟨by simp [hs], hin⟩

end

/-- Expressions are what commas separate. -/
theorem splitOnP_of_isExpressions {ws : List Word} {sums : List (List Word)} (h : IsExpressions ws sums) {t : Word}
    (ht : t.tag = .endOfText) :
    ((ws ++ [t]).splitOnP fun w => w.tag = .comma).map idents = sums.map idents := by
  induction h with
  | last hsum =>
    have hnone := hsum.tag_ne_comma
    rw [List.splitOnP_eq_singleton]
    · simp [idents_cons_of_ne, ht]
    · intro w hw
      rcases List.mem_append.mp hw with hw | hw
      · simpa using hnone w hw
      · simp [List.mem_singleton.mp hw, ht]
  | more hsum hc _ ih =>
    have hnone := hsum.tag_ne_comma
    rw [List.append_assoc, List.cons_append, List.splitOnP_append_cons_of_forall_mem (by simpa using hnone) _
      (by simpa using hc), List.map_cons, ih, List.map_cons]

/-- The expressions of a declaration mention the names that its sums do. -/
theorem Declares.expressionNames_eq {line : String} {names : List String} {sums : List (List Word)}
    (h : Declares line names sums) : expressionNames line = sums.map idents := by
  obtain ⟨-, hline⟩ := h
  unfold expressionNames
  generalize (lexed line).words = ws at hline
  cases hline with
  | line hnames he hexp ht =>
    rw [List.dropWhile_append_of_pos (by simpa using hnames.tag_ne_equalSign),
      List.dropWhile_cons_of_neg (by simp [he]), List.tail_cons, splitOnP_of_isExpressions hexp ht]

/-! ## The marks of lines -/

theorem arena_concat (ls : List String) (line : String) : arena (ls ++ [line]) = markLine (arena ls) line :=
  List.foldl_concat ..

theorem markedOnce_arena (ls : List String) : MarkedOnce (arena ls) := by
  induction ls using List.reverseRecOn with
  | nil => intro h x hx; simp [arena] at hx
  | append_singleton ls line ih =>
    rw [arena_concat]
    exact (ih.addAll _).concat fun x hx => by cases hx

theorem name_mem_arena {ls : List String} {x : String} : .name x ∈ arena ls ↔ ∃ line ∈ ls, x ∈ lineNames line := by
  induction ls using List.reverseRecOn with
  | nil => simp [arena]
  | append_singleton ls line ih =>
    rw [arena_concat, markLine, markNames]
    simp [mem_addAll, ih, or_and_right, exists_or]

/-! ## What names call -/

theorem mem_keys_bindings {ls : List String} {x : String} (hx : x ∈ (bindings ls).keys) :
    ∃ line ∈ ls, x ∈ declaredNames line := by
  obtain ⟨e, he, rfl⟩ := List.mem_map.mp hx
  obtain ⟨line, hline, hmem⟩ := List.mem_flatMap.mp he
  exact ⟨line, hline, (List.of_mem_zip hmem).1⟩

/-- A name that is not declared is paired with nothing. -/
theorem get?_bindings_of_undeclared {ls : List String} {x : String} (h : ∀ line ∈ ls, x ∉ declaredNames line) :
    (bindings ls).get? x = none := by
  rw [Table.get?_eq_none_iff]
  intro hx
  obtain ⟨line, hline, hmem⟩ := mem_keys_bindings hx
  exact h line hline hmem

/-- So it calls nothing. -/
theorem callsOf_of_undeclared {ls : List String} {x : String} (h : ∀ line ∈ ls, x ∉ declaredNames line) :
    callsOf ls x = [] := by
  rw [callsOf, get?_bindings_of_undeclared h]
  rfl

/-- What a name calls is mentioned. -/
theorem name_mem_arena_of_callsOf {ls : List String} {x y : String} (h : y ∈ callsOf ls x) :
    .name y ∈ arena ls := by
  rw [callsOf, mem_distinct] at h
  cases hget : (bindings ls).get? x with
  | none => simp [hget] at h
  | some e =>
    rw [hget, Option.getD_some] at h
    obtain ⟨line, hline, hmem⟩ := List.mem_flatMap.mp (Table.mem_of_get? hget)
    have hcalled : y ∈ calledNames line := by
      rw [← flatten_expressionNames]
      exact List.mem_flatten_of_mem (List.of_mem_zip hmem).2 h
    exact name_mem_arena.mpr ⟨line, hline, List.mem_append_right _ hcalled⟩

/-- One more line, which declares other names, adds what its names call. -/
theorem callsOf_concat {ls : List String} {line : String}
    (hfresh : ∀ x ∈ declaredNames line, ∀ other ∈ ls, x ∉ declaredNames other) (x : String) :
    callsOf (ls ++ [line]) x = callsOf ls x ++ callsOf [line] x := by
  have happend : bindings (ls ++ [line]) = bindings ls ++ bindings [line] := List.flatMap_append
  by_cases hx : x ∈ declaredNames line
  · rw [callsOf_of_undeclared (hfresh x hx), callsOf, happend, Table.get?_append,
      get?_bindings_of_undeclared (hfresh x hx), Option.none_or]
    rfl
  · have hother : ∀ other ∈ [line], x ∉ declaredNames other := by simpa using hx
    rw [callsOf_of_undeclared hother, List.append_nil, callsOf, happend, Table.get?_append,
      get?_bindings_of_undeclared hother, Option.or_none]
    rfl

/-! ## One more line -/

theorem arena_append (ls : List String) (line : String) : ∃ more, arena (ls ++ [line]) = arena ls ++ more := by
  rw [arena_concat, markLine, markNames, addAll_eq_append_fresh, List.append_assoc]
  exact ⟨_, rfl⟩

theorem line_mem_arena {ls : List String} {line : String} : .line line ∈ arena ls ↔ line ∈ ls := by
  induction ls using List.reverseRecOn with
  | nil => simp [arena]
  | append_singleton ls line' ih =>
    rw [arena_concat, markLine, markNames]
    simp [mem_addAll, ih]

theorem Graph.empty_eq_draw : ({} : Graph) = draw (arena []) (draft []) := rfl

theorem blank_draft (ls : List String) : Graph.Blank (arena ls) (draft ls) := by
  intro x hx h
  have hnone : callsOf ls x = [] := by
    refine callsOf_of_undeclared fun line hline hmem => hx ?_
    exact name_mem_arena.mpr ⟨line, hline, List.mem_append_left _ hmem⟩
  rw [draft, vertexOf, hnone]
  rfl

/-- Another line stays what it is. -/
theorem draft_line_concat {ls : List String} {l : String} (hl : l ∈ ls) (line : String) (h : Handle) :
    draft (ls ++ [line]) h (.line l) = draft ls h (.line l) := by
  obtain ⟨more, hmore⟩ := arena_append ls line
  have hdeclared : ∀ x ∈ declaredNames l, .name x ∈ arena ls := fun x hx =>
    name_mem_arena.mpr ⟨l, hl, List.mem_append_left _ hx⟩
  have hcalled : ∀ x ∈ distinct (calledNames l), .name x ∈ arena ls := fun x hx =>
    name_mem_arena.mpr ⟨l, hl, List.mem_append_right _ (mem_distinct.mp hx)⟩
  simp only [draft, vertexOf, hmore, map_place_append hdeclared, map_place_append hcalled]

/-- A name is related to what it calls on the line. -/
theorem draft_name_concat {ls : List String} {line : String}
    (hfresh : ∀ x ∈ declaredNames line, ∀ other ∈ ls, x ∉ declaredNames other) (h : Handle) (x : String) :
    draft (ls ++ [line]) h (.name x) = { draft ls h (.name x) with
      related := (draft ls h (.name x)).related ++ (callsOf [line] x).map (place (arena (ls ++ [line]))) } := by
  obtain ⟨more, hmore⟩ := arena_append ls line
  have hold : (callsOf ls x).map (place (arena (ls ++ [line]))) = (callsOf ls x).map (place (arena ls)) := by
    rw [hmore]
    exact map_place_append (fun y hy => name_mem_arena_of_callsOf hy) more
  simp only [draft, vertexOf, callsOf_concat hfresh, List.map_append, hold]

/-- The calls of one name of a line. -/
theorem filter_callPairs {P : String → Handle} {x : String} {names : List String} (hnodup : names.Nodup)
    (hP : ∀ y ∈ names, P y = P x → y = x) (groups : List (List String)) :
    ((Session.callPairs (names.map P) (groups.map fun ys => (distinct ys).map P)).filter (·.1 = P x)).map Prod.snd =
      (distinct ((Table.get? (names.zip groups) x).getD [])).map P := by
  induction names generalizing groups with
  | nil => rfl
  | cons n names ih =>
    cases groups with
    | nil => rfl
    | cons group groups =>
      obtain ⟨hn, hnodup⟩ := List.nodup_cons.mp hnodup
      obtain ⟨hPn, hP⟩ := List.forall_mem_cons.mp hP
      have hrest := ih hnodup hP groups
      have hpairs : Session.callPairs ((n :: names).map P) ((group :: groups).map fun ys => (distinct ys).map P) =
          ((distinct group).map P).map (fun h => (P n, h)) ++
            Session.callPairs (names.map P) (groups.map fun ys => (distinct ys).map P) := rfl
      rw [hpairs, List.filter_append, List.map_append, hrest, List.zip_cons_cons, Table.get?]
      by_cases hx : n = x
      · subst hx
        have hnone : Table.get? (names.zip groups) n = none := by
          rw [Table.get?_eq_none_iff]
          intro hkey
          obtain ⟨e, he, rfl⟩ := List.mem_map.mp hkey
          exact hn (List.of_mem_zip he).1
        have hempty : distinct ([] : List String) = [] := rfl
        simp [hnone, hempty, List.filter_map, Function.comp_def]
      · have hne : P n ≠ P x := fun he => hx (hPn he)
        simp [hx, hne, List.filter_map, Function.comp_def]

/-! ## The places of the names of a line -/

/-- The places of the names that a line declares. -/
def declaredPlaces (ls : List String) (line : String) : List Handle :=
  (declaredNames line).map (place (markNames (arena ls) line))

/-- The places of the names that each expression of a line mentions. -/
def calledPlaces (ls : List String) (line : String) : List (List Handle) :=
  (expressionNames line).map fun ys => (distinct ys).map (place (markNames (arena ls) line))

section

variable {ls : List String} {line : String}

theorem name_mem_markNames (marks : List Mark) {x : String} (hx : x ∈ lineNames line) :
    .name x ∈ markNames marks line :=
  mem_addAll.mpr (.inr (List.mem_map_of_mem hx))

theorem mem_lineNames_of_expression {ys : List String} (hys : ys ∈ expressionNames line) {y : String} (hy : y ∈ ys) :
    y ∈ lineNames line := by
  refine List.mem_append_right _ ?_
  rw [← flatten_expressionNames]
  exact List.mem_flatten_of_mem hys hy

/-- The mark of the line is behind those of its names. -/
theorem map_place_concat {xs : List String} (h : ∀ x ∈ xs, x ∈ lineNames line) :
    xs.map (place (arena (ls ++ [line]))) = xs.map (place (markNames (arena ls) line)) := by
  rw [arena_concat, markLine, map_place_append fun x hx => name_mem_markNames _ (h x hx)]

/-- Names are repeated where their places are. -/
theorem distinct_map_place (marks : List Mark) {xs : List String} (h : ∀ x ∈ xs, x ∈ lineNames line) :
    distinct (xs.map (place (markNames marks line))) = (distinct xs).map (place (markNames marks line)) :=
  distinct_map _ fun x hx _ _ hxy => (place_inj (name_mem_markNames marks (h x hx))).mp hxy

theorem calledPlaces_eq (ls : List String) (line : String) :
    ((expressionNames line).map (List.map (place (markNames (arena ls) line)))).map distinct =
      calledPlaces ls line := by
  rw [List.map_map]
  exact List.map_congr_left fun ys hys => distinct_map_place _ fun y hy => mem_lineNames_of_expression hys hy

/-- The names that a line calls are those of its expressions, and are repeated where they are repeated there. -/
theorem distinct_flatten_calledPlaces (ls : List String) (line : String) :
    distinct (calledPlaces ls line).flatten =
      (distinct (calledNames line)).map (place (markNames (arena ls) line)) := by
  have hmap : (calledPlaces ls line).flatten =
      ((expressionNames line).map distinct).flatten.map (place (markNames (arena ls) line)) := by
    rw [calledPlaces, List.map_flatten, List.map_map]
    rfl
  have hmem : ∀ x ∈ ((expressionNames line).map distinct).flatten, x ∈ lineNames line := by
    intro x hx
    have hx : x ∈ (expressionNames line).flatten := by
      rw [← mem_distinct, ← distinct_flatten, mem_distinct]
      exact hx
    exact List.mem_append_right _ (flatten_expressionNames line ▸ hx)
  rw [hmap, distinct_map_place _ hmem, distinct_flatten, flatten_expressionNames]

/-- The edges of a line start at the names it declares, so none starts at another line. -/
theorem filter_callPairs_line {h : Handle} {l : String} (hl : (markNames (arena ls) line)[h]? = some (.line l)) :
    (Session.callPairs (declaredPlaces ls line) (calledPlaces ls line)).filter (·.1 = h) = [] := by
  refine List.filter_eq_nil_iff.mpr fun e he => ?_
  obtain ⟨hsource, -⟩ := Session.mem_callPairs he
  obtain ⟨x, hx, hxe⟩ := List.mem_map.mp hsource
  have hat := getElem?_place (name_mem_markNames (arena ls) (List.mem_append_left _ hx))
  rw [hxe] at hat
  simp only [decide_eq_true_eq]
  rintro rfl
  rw [hat] at hl
  cases hl

/-- The edges of a line that start at a name. -/
theorem filter_callPairs_name (hnodup : (declaredNames line).Nodup) (x : String) :
    ((Session.callPairs (declaredPlaces ls line) (calledPlaces ls line)).filter
        (·.1 = place (markNames (arena ls) line) x)).map Prod.snd =
      (callsOf [line] x).map (place (arena (ls ++ [line]))) := by
  have hinj : ∀ y ∈ declaredNames line,
      place (markNames (arena ls) line) y = place (markNames (arena ls) line) x → y = x := fun y hy hyx =>
    (place_inj (name_mem_markNames _ (List.mem_append_left _ hy))).mp hyx
  have hcalls : ∀ y ∈ callsOf [line] x, y ∈ lineNames line := by
    intro y hy
    have hy := name_mem_arena.mp (name_mem_arena_of_callsOf hy)
    simpa using hy
  rw [map_place_concat hcalls, declaredPlaces, calledPlaces, filter_callPairs hnodup hinj, callsOf, bindings,
    List.flatMap_singleton]

/-- A vertex changes by the edges of the line that start at it. -/
theorem draft_concat (hnodup : (declaredNames line).Nodup)
    (hfresh : ∀ x ∈ declaredNames line, ∀ other ∈ ls, x ∉ declaredNames other) {h : Handle} {m : Mark}
    (hm : (markNames (arena ls) line)[h]? = some m) :
    { draft ls h m with
      related := (draft ls h m).related ++
        ((Session.callPairs (declaredPlaces ls line) (calledPlaces ls line)).filter (·.1 = h)).map Prod.snd } =
      draft (ls ++ [line]) h m := by
  cases m with
  | name x =>
    obtain rfl : place (markNames (arena ls) line) x = h := (markedOnce_arena ls).addAll _ h x hm
    rw [draft_name_concat hfresh, filter_callPairs_name hnodup]
  | line l =>
    have hl : l ∈ ls := by
      have hmem : .line l ∈ markNames (arena ls) line := List.mem_of_getElem? hm
      rw [markNames, mem_addAll, line_mem_arena] at hmem
      simpa using hmem
    rw [draft_line_concat hl, filter_callPairs_line hm, List.map_nil, List.append_nil]

/-- **A line draws its marks.** The names of the line are marked, those that it declares are related to what their
expressions mention, and the line is marked. -/
theorem Graph.addLine_draw (hnodup : (declaredNames line).Nodup)
    (hfresh : ∀ x ∈ declaredNames line, ∀ other ∈ ls, x ∉ declaredNames other) :
    (((draw (markNames (arena ls) line) (draft ls)).addEdges
      (Session.callPairs (declaredPlaces ls line) (calledPlaces ls line))).addFormula
      (unindented line) (declaredPlaces ls line) (calledPlaces ls line)).2 =
      draw (arena (ls ++ [line])) (draft (ls ++ [line])) := by
  have harena : arena (ls ++ [line]) = markNames (arena ls) line ++ [.line line] := arena_concat ls line
  have hdeclared : (declaredNames line).map (place (arena (ls ++ [line]))) = declaredPlaces ls line :=
    map_place_concat fun x hx => List.mem_append_left _ hx
  have hcalled : (distinct (calledNames line)).map (place (arena (ls ++ [line]))) =
      distinct (calledPlaces ls line).flatten := by
    rw [distinct_flatten_calledPlaces]
    exact map_place_concat fun x hx => List.mem_append_right _ (mem_distinct.mp hx)
  rw [addEdges_draw, draw_congr fun h m hm => draft_concat hnodup hfresh hm, harena]
  refine addFormula_draw ?_
  rw [draft, vertexOf, hdeclared, hcalled]

end

/-! ## The lines of a text -/

namespace Session

variable {s : Session} {c : Cursor} {line : String}

/-- An accepted line is read as what it says, and becomes a formula. -/
theorem graph_enter (hs : s.WellFormed) (hc : IsLineCursor c line) (h : (s.enter c).outcome = .ok ()) :
    (s.reading c).names = declaredNames line ∧ (s.reading c).expressions = expressionNames line ∧
      (s.enter c).session.graph =
        (((s.noted c).graph.addEdges (callPairs (s.declaring c) (s.calling c))).addFormula (unindented line)
          (s.declaring c) (s.calling c)).2 := by
  have hway := way_enter hs.graph.named c
  generalize s.enter c = entry at hway h ⊢
  cases hway with
  | noToken _ => cases h
  | unread _ _ => cases h
  | unmatched _ _ _ => cases h
  | circular _ _ _ _ _ _ _ _ => cases h
  | @formula first finish hhead hout _ _ =>
    have htag : finish.tag = .endOfText := by
      by_contra htag
      simp only [htag, if_false] at h
      cases h
    have hread : s.reading c = ⟨(s.reading c).names, (s.reading c).expressions, .ok finish⟩ := by
      rw [← hout]
    obtain ⟨-, -, sums, hdeclares, hgroups⟩ := (s.reading_eq_iff hc).mp ⟨finish, hread, htag⟩
    have hend := ((Reading.ofLexed_endOfText_iff (proper_ofCursor hc.bounded)).mp ⟨hread, htag⟩).2.1
    exact ⟨hdeclares.declaredNames_eq.symm, by rw [hgroups, hdeclares.expressionNames_eq],
      by rw [labelOf_eq hc hhead hend]⟩

/-- Noting the names of a line marks them. -/
theorem noted_draw {marks : List Mark} {vertex : Handle → Mark → Vertex} (hg : s.graph = draw marks vertex)
    (hblank : Graph.Blank marks vertex) :
    let marks' := addAll marks (((s.reading c).names ++ (s.reading c).expressions.flatten).map .name)
    (s.noted c).graph = draw marks' vertex ∧ s.declaring c = (s.reading c).names.map (place marks') ∧
      s.calling c = ((s.reading c).expressions.map (List.map (place marks'))).map distinct := by
  intro marks'
  have hmarks : marks' = addAll (addAll marks ((s.reading c).names.map .name))
      ((s.reading c).expressions.flatten.map .name) := by
    rw [← addAll_append, ← List.map_append]
  have hnames : ∀ x ∈ (s.reading c).names, .name x ∈ addAll marks ((s.reading c).names.map .name) := fun x hx =>
    mem_addAll.mpr (.inr (List.mem_map_of_mem hx))
  have hall := Graph.registerAll_draw hblank (s.reading c).names
  have hgroups := Graph.registerGroups_draw (hblank.addAll ((s.reading c).names.map .name)) (s.reading c).expressions
  rw [← hg] at hall
  rw [hmarks, map_place_addAll hnames]
  simp only [noted, declaring, calling, note, hall, hgroups]
  exact ⟨trivial, trivial, trivial⟩

/-- **An accepted line draws its marks.** -/
theorem draws_enter {ls : List String} (hs : s.Holds ls) (hg : s.graph = draw (arena ls) (draft ls))
    (hc : IsLineCursor c line) (hok : (s.enter c).outcome = .ok ()) :
    (s.enter c).session.graph = draw (arena (ls ++ [line])) (draft (ls ++ [line])) := by
  obtain ⟨hnames, hgroups, hgraph⟩ := graph_enter hs.wellFormed hc hok
  obtain ⟨hnoted, hdeclaring, hcalling⟩ := noted_draw (c := c) hg (blank_draft ls)
  obtain ⟨-, hnodup, hfresh, -⟩ := (enter_outcome_iff hs.wellFormed.graph hc).mp hok
  have hother : ∀ x ∈ declaredNames line, ∀ other ∈ ls, x ∉ declaredNames other := by
    intro x hx other hother hmem
    exact hfresh x hx (hs.defined ▸ List.mem_flatMap.mpr ⟨other, hother, hmem⟩)
  rw [hnames, hgroups, flatten_expressionNames] at hnoted hdeclaring hcalling
  have hcalled : s.calling c = calledPlaces ls line := hcalling.trans (calledPlaces_eq ls line)
  rw [hgraph, hnoted, hdeclaring, hcalled]
  exact Graph.addLine_draw hnodup hother

/-- **So do lines.** -/
theorem draws_enterAll {cs : List Cursor} {ls : List String} (h : List.Forall₂ IsLineCursor cs ls)
    {before : List String} (hs : s.Holds before) (hg : s.graph = draw (arena before) (draft before))
    (hok : (s.enterAll cs).2.2 = .ok ()) :
    (s.enterAll cs).1.graph = draw (arena (before ++ ls)) (draft (before ++ ls)) := by
  induction h generalizing s before with
  | nil => rwa [enterAll, List.append_nil]
  | @cons c line cs ls hc _ ih =>
    rw [enterAll] at hok ⊢
    cases hout : (s.enter c).outcome with
    | error e =>
      rw [hout] at hok
      cases hok
    | ok u =>
      simp only [hout] at hok ⊢
      have hadds := adds_enter hs.wellFormed hc hout
      have hnext := ih (hs.adds (hs.wellFormed.enter c) hadds) (draws_enter hs hg hc hout) hok
      rwa [List.append_assoc, List.singleton_append] at hnext

end Session

/-! ## Links -/

section

variable {ls : List String} {h k : Handle} {l l' : String}

theorem declaredBy_draft (hl : (arena ls)[h]? = some (.line l)) :
    (draw (arena ls) (draft ls)).declaredBy h = (declaredNames l).map (place (arena ls)) := by
  rw [Graph.declaredBy, Graph.vertices_draw, hl]
  rfl

theorem calledBy_draft (hl : (arena ls)[h]? = some (.line l)) :
    (draw (arena ls) (draft ls)).calledBy h = (distinct (calledNames l)).map (place (arena ls)) := by
  rw [Graph.calledBy, Graph.vertices_draw, hl]
  rfl

/-- A line calls names that another declares if it calls their places. -/
theorem callsOn_draft (hl : (arena ls)[h]? = some (.line l)) (hl' : (arena ls)[k]? = some (.line l')) :
    (draw (arena ls) (draft ls)).CallsOn h k ↔ k ≠ h ∧ ∃ x ∈ declaredNames l', x ∈ calledNames l := by
  rw [Graph.CallsOn, declaredBy_draft hl', calledBy_draft hl]
  refine and_congr_right fun _ => ?_
  constructor
  · rintro ⟨d, hd, hd'⟩
    obtain ⟨x, hx, rfl⟩ := List.mem_map.mp hd
    obtain ⟨y, hy, hyx⟩ := List.mem_map.mp hd'
    have hmem : .name x ∈ arena ls := name_mem_arena.mpr
      ⟨l', line_mem_arena.mp (List.mem_of_getElem? hl'), List.mem_append_left _ hx⟩
    exact ⟨x, hx, (place_inj hmem).mp hyx.symm ▸ mem_distinct.mp hy⟩
  · rintro ⟨x, hx, hx'⟩
    exact ⟨_, List.mem_map_of_mem hx, List.mem_map_of_mem (mem_distinct.mpr hx')⟩

end

/-- Linking relates lines to those that declare a name they call. -/
theorem Graph.link_draw {ls : List String} (hown : (draw (arena ls) (draft ls)).OwnedOnce)
    (hnodup : (linePlaces (arena ls)).Nodup) :
    (draw (arena ls) (draft ls)).link = draw (arena ls) (vertexOf ls) := by
  refine eq_of_vertices (fun h => ?_) (names_link _) (formulas_link _)
  rw [link, vertices_addEdges, filter_linkEdges hnodup, vertices_draw, vertices_draw, Option.map_map]
  cases hm : (arena ls)[h]? with
  | none => rfl
  | some m =>
    have hline : h ∈ (draw (arena ls) (draft ls)).formulas ↔ ∃ line, m = .line line := by
      change h ∈ linePlaces (arena ls) ↔ _
      rw [mem_linePlaces, hm]
      simp
    cases m with
    | name x =>
      have hname : h ∉ (draw (arena ls) (draft ls)).formulas := by simp [hline]
      simp [draft, hname]
    | line l =>
      have htargets : (draw (arena ls) (draft ls)).targets (draw (arena ls) (draft ls)).owners h =
          callees (arena ls) h l := by
        rw [targets_eq hnodup hown]
        refine List.filter_congr fun k hk => ?_
        obtain ⟨l', hl'⟩ := mem_linePlaces.mp hk
        simp [callsOn_draft hm hl', hl', Mark.declares]
      simp [draft, vertexOf, hline, htargets]

/-- The lines of a text draw their marks, before they are linked. -/
theorem graph_afterLines {text : String} (h : (afterLines text).2.2 = .ok ()) :
    (afterLines text).1.graph = draw (arena (textLines text)) (draft (textLines text)) := by
  have hlines := Session.draws_enterAll (isLineCursor_lineCursors text) Session.holds_empty Graph.empty_eq_draw h
  rwa [List.nil_append, ← afterLines] at hlines

/-- What a line declares is bound to what its expressions mention. -/
theorem get?_bindings {ls : List String}
    (hlen : ∀ line ∈ ls, (declaredNames line).length = (expressionNames line).length)
    (honce : (ls.flatMap declaredNames).Nodup) {line : String} (hline : line ∈ ls) {e : String × List String}
    (he : e ∈ (declaredNames line).zip (expressionNames line)) : (bindings ls).get? e.1 = some e.2 := by
  have hkeys : (bindings ls).keys = ls.flatMap declaredNames := by
    rw [Table.keys, bindings, List.map_flatMap]
    exact List.flatMap_congr fun line hline => List.map_fst_zip (Nat.le_of_eq (hlen line hline))
  exact Table.get?_of_mem (hkeys ▸ honce) (List.mem_flatMap.mpr ⟨line, hline, he⟩)

/-- **The graph of an accepted text is drawn from its lines.** Its vertices are the marks of the lines, in order. Lines
are related to others in ascending order. The names of a line are as many as its expressions, and each is related to
the names that its own expression mentions, each once, in the order they are mentioned. -/
theorem readFormulas_eq_draw {text : String} {g : Graph} (h : readFormulas text = .ok g) :
    g = draw (arena (textLines text)) (vertexOf (textLines text)) ∧
      (∀ f ∈ g.formulas, (g.relatedOf f).Pairwise (· < ·)) ∧
      ∀ line ∈ textLines text, (declaredNames line).length = (expressionNames line).length ∧
        ∀ e ∈ (declaredNames line).zip (expressionNames line),
          g.relatedOf (place (arena (textLines text)) e.1) = (distinct e.2).map (place (arena (textLines text))) := by
  obtain ⟨haccepts, -, hlink⟩ := readFormulas_eq_ok_iff.mp h
  obtain ⟨hdeclares, ⟨honce, -⟩, -⟩ := acceptsAll_iff.mp haccepts
  have hok := (afterLines_outcome_iff text).mpr haccepts
  have hwf := (holds_afterLines hok).wellFormed.graph
  rw [graph_afterLines hok] at hlink hwf
  generalize textLines text = ls at *
  have hlen : ∀ line ∈ ls, (declaredNames line).length = (expressionNames line).length := by
    intro line hline
    obtain ⟨names, sums, hdecl, hsame⟩ := hdeclares line hline
    rw [hdecl.declaredNames_eq, hdecl.expressionNames_eq, List.length_map, hsame]
  have hg : g = draw (arena ls) (vertexOf ls) := by
    rw [hlink]
    exact Graph.link_draw hwf.ownedOnce (hwf.ascending.imp Nat.ne_of_lt)
  subst hg
  refine ⟨rfl, ?_, fun line hline => ⟨hlen line hline, ?_⟩⟩
  · intro f hf
    obtain ⟨line, hmark⟩ := mem_linePlaces.mp hf
    have hvertex : (draw (arena ls) (vertexOf ls)).vertices[f]? = some (vertexOf ls f (.line line)) := by
      rw [Graph.vertices_draw, hmark, Option.map_some]
    rw [Graph.relatedOf_eq hvertex]
    exact List.pairwise_lt_range.sublist (List.filter_sublist.trans List.filter_sublist)
  · intro e he
    have hmark : .name e.1 ∈ arena ls :=
      name_mem_arena.mpr ⟨line, hline, List.mem_append_left _ (List.of_mem_zip he).1⟩
    have hvertex : (draw (arena ls) (vertexOf ls)).vertices[place (arena ls) e.1]? =
        some (vertexOf ls (place (arena ls) e.1) (.name e.1)) := by
      rw [Graph.vertices_draw, getElem?_place hmark, Option.map_some]
    rw [Graph.relatedOf_eq hvertex, vertexOf, callsOf, get?_bindings hlen honce hline he]
    rfl

/-- The first line mentions three names and calls `b` twice; the second mentions no new ones. -/
theorem readFormulas_known_names :
    ∃ g, readFormulas "a=b*(c+b)\nc,b=1,2" = .ok g ∧ g = draw
        [.name "a", .name "b", .name "c", .line "a=b*(c+b)", .line "c,b=1,2"] (vertexOf ["a=b*(c+b)", "c,b=1,2"]) ∧
      g.relatedOf 0 = [1, 2] ∧ g.relatedOf 3 = [4] := by
  have hread : ((readFormulas "a=b*(c+b)\nc,b=1,2").toOption.map fun g => (g.relatedOf 0, g.relatedOf 3)) =
      some ([1, 2], [4]) := by
    decide +kernel
  have hlines : textLines "a=b*(c+b)\nc,b=1,2" = ["a=b*(c+b)", "c,b=1,2"] := by decide +kernel
  have harena : arena ["a=b*(c+b)", "c,b=1,2"] =
      [.name "a", .name "b", .name "c", .line "a=b*(c+b)", .line "c,b=1,2"] := by
    decide +kernel
  cases hg : readFormulas "a=b*(c+b)\nc,b=1,2" with
  | error e => simp [hg, Except.toOption] at hread
  | ok g =>
    have hdraw := (readFormulas_eq_draw hg).1
    rw [hlines, harena] at hdraw
    simp only [hg, Except.toOption, Option.map_some, Option.some.injEq, Prod.mk.injEq] at hread
    exact ⟨g, rfl, hdraw, hread⟩

end EvalOrder
