import EvalOrder.Proofs.Incremental
import EvalOrder.Proofs.Locality

/-!
# The first lines of a text

A text that is accepted may go on with more lines. Then its own lines come to what they came to by themselves: their
names and formulas have the same handles, and their formulas the same edges, because whatever they call was declared
among them. The search of the whole begins with their formulas, sees no others before it has left all of these, and
never comes back to them. So what is ordered by itself is the beginning of the order of the whole, with the same ranks,
and a circle among the first lines is the one that is reported of the whole. A text that is refused because of one of
its lines stays refused, and for nothing else: no line after that one is looked at.

Results:
* `Continues.link`: the links of the first formulas.
* `sort_continues`: the search of the first formulas.
* `rankOf_order`, `order_continues`: their places in the order.
* `continues_readFormulas`: the graph of a text and that of its first lines.
* **`order_append`**: the order of a text and that of its first lines.
* **`readFormulas_append_of_error`**: what is said of a text that is refused because of its first lines.
-/

namespace EvalOrder

/-- A list in which the members of another have the places that they have there begins with it. -/
theorem prefix_of_idxOf {α : Type} [DecidableEq α] {l l' : List α} (hl : l.Nodup)
    (h : ∀ a ∈ l, a ∈ l' ∧ l'.idxOf a = l.idxOf a) : l <+: l' := by
  rw [List.prefix_iff_getElem?]
  intro i hi
  obtain ⟨hmem, hplace⟩ := h l[i] (List.getElem_mem hi)
  rw [hl.idxOf_getElem i hi] at hplace
  have hlt := List.idxOf_lt_length_of_mem hmem
  have hget : l'[l'.idxOf l[i]] = l[i] := List.getElem_idxOf hlt
  simp only [hplace] at hlt hget
  rw [List.getElem?_eq_getElem hlt, hget]

namespace Graph

variable {g g' : Graph}

/-! ## Links -/

/-- Linking gives the first formulas the same links as by themselves, if all that they call is declared. -/
theorem Continues.link (h : g.Continues g') (hg : g.WellFormed) (hg' : g'.WellFormed) (hc : g.Complete) :
    g.link.Continues g'.link := by
  have hnodup : g.formulas.Nodup := hg.ascending.imp Nat.ne_of_lt
  have hnodup' : g'.formulas.Nodup := hg'.ascending.imp Nat.ne_of_lt
  refine ⟨⟨fun {x i} hi => ?_, fun f hf => ?_⟩, ?_⟩
  · rw [Graph.link, find?_addEdges] at hi ⊢
    exact h.find? hi
  · rw [formulas_link] at hf
    have hlinks : (g'.linkEdges.filter (·.1 = f)).map Prod.snd =
        (g.linkEdges.filter (·.1 = f)).map Prod.snd := by
      rw [filter_linkEdges hnodup', filter_linkEdges hnodup, if_pos hf, if_pos (h.formulas.subset hf),
        h.targets hg hg' hc hf]
    rw [Graph.link, Graph.link, vertices_addEdges, vertices_addEdges, h.vertices f hf, hlinks]
  · rw [formulas_link, formulas_link]
    exact h.formulas

/-! ## Sorting -/

/-- **Sorting begins with the first formulas**, as by themselves. If it fails among them, so does the whole; otherwise
they are left for good. -/
theorem sort_continues (h : g.Continues g') (hg : g.Linked) (hg' : g'.Linked) :
    (∀ e, (g.sort g.formulas).2 = .error e → (g'.sort g'.formulas).2 = .error e) ∧
      ((g.sort g.formulas).2 = .ok () → ∀ f ∈ g.formulas,
        (g'.sort g'.formulas).1.vertices[f]? = (g.sort g.formulas).1.vertices[f]?) := by
  have hleaves := leaves hg
  obtain ⟨g₀, hreset, hsame, hvertices⟩ := resetAll_eq hg.inRange
  obtain ⟨g₀', hreset', -, hvertices'⟩ := resetAll_eq hg'.inRange
  obtain ⟨more, hmore⟩ := h.formulas
  have hconfined : Search.Confined (· ∈ g.formulas) ⟨g₀, [], 1⟩ :=
    ⟨by simp, fun a b ha hab _ => hg.inner a ha b (hsame.edge_eq ▸ hab)⟩
  have halike : Search.Alike (· ∈ g.formulas) (fun _ => False) ⟨g₀, [], 1⟩ ⟨g₀', [], 1⟩ := by
    refine ⟨.of_none _, rfl, rfl, fun i hi _ => ?_⟩
    have hf : i ∈ g.formulas := hi.elim id fun ⟨a, ha, hab⟩ => hg.inner a ha i (hsame.edge_eq ▸ hab)
    rw [hvertices, hvertices', if_pos hf, if_pos (h.formulas.subset hf), h.vertices i hf]
  obtain ⟨hout, hend⟩ := (halike.visitAll hconfined fun _ hi => ⟨hi, id⟩).resolve_left Search.not_stumbles
  rw [sort_of_reset hreset] at hleaves ⊢
  rw [sort_of_reset hreset', ← hmore, Search.visitAll_append]
  generalize Search.visitAll g₀ 1 g.formulas = first at hleaves hout hend ⊢
  generalize Search.visitAll g₀' 1 g.formulas = first' at hout hend ⊢
  obtain ⟨s, outcome⟩ := first
  obtain ⟨s', outcome'⟩ := first'
  obtain rfl : outcome' = outcome := hout
  cases outcome' with
  | error e => exact ⟨fun _ he => he, fun hok => by cases hok⟩
  | ok u =>
    refine ⟨fun _ he => (by cases he), fun _ f hf => ?_⟩
    have hseen : s'.graph.vertices[f]? = s.graph.vertices[f]? := hend.seen f (.inl hf) id
    -- the search has left this formula, and goes on from the others
    have hblack : s'.graph.colorOf f = some .black := by
      rw [colorOf, hseen]
      cases hleaves with
      | done _ _ hblack _ _ => exact hblack f hf
    exact (Search.visitAll_of_black s'.rank more hblack).trans hseen

/-! ## Ordering -/

/-- How ordering ends is how sorting ends. -/
theorem order_eq_sort (g : Graph) :
    g.order = ((g.sort g.formulas).1, (g.sort g.formulas).2.map fun _ => (g.sort g.formulas).1.ranked) := by
  unfold order
  generalize g.sort g.formulas = result
  obtain ⟨g', outcome⟩ := result
  cases outcome <;> rfl

/-- **The order of the first formulas** is the beginning of the whole, and they are left with the same ranks; a circle
among them is that of the whole. -/
theorem order_continues (h : g.Continues g') (hg : g.Linked) (hg' : g'.Linked) :
    (∀ e, g.order.2 = .error e → g'.order.2 = .error e) ∧
      ∀ ordered ordered', g.order.2 = .ok ordered → g'.order.2 = .ok ordered' → ordered <+: ordered' ∧
        ∀ f ∈ g.formulas, g'.order.1.vertices[f]? = g.order.1.vertices[f]? := by
  obtain ⟨herror, hleft⟩ := sort_continues h hg hg'
  constructor
  · intro e he
    have hsort : (g.sort g.formulas).2 = .error e := by
      rw [order_eq_sort] at he
      cases hout : (g.sort g.formulas).2 with
      | error e' => simpa [hout, Except.map] using he
      | ok u => simp [hout, Except.map] at he
    rw [order_eq_sort, herror e hsort]
    rfl
  · intro ordered ordered' hordered hordered'
    obtain ⟨hperm, hranks⟩ := rankOf_order hg hordered
    obtain ⟨hperm', hranks'⟩ := rankOf_order hg' hordered'
    have hsort : (g.sort g.formulas).2 = .ok () := by
      rw [order_eq_sort] at hordered
      cases hout : (g.sort g.formulas).2 with
      | error e => simp [hout, Except.map] at hordered
      | ok u => rfl
    have hsame : ∀ f ∈ g.formulas, g'.order.1.vertices[f]? = g.order.1.vertices[f]? := by
      rw [order_eq_sort, order_eq_sort]
      exact hleft hsort
    refine ⟨prefix_of_idxOf (hperm.nodup_iff.mpr hg.once) fun f hf => ?_, hsame⟩
    have hmem : f ∈ ordered' := hperm'.mem_iff.mpr (h.formulas.subset (hperm.mem_iff.mp hf))
    have hrank : g'.order.1.rankOf f = g.order.1.rankOf f := by
      rw [rankOf, hsame f (hperm.mem_iff.mp hf), rankOf]
    rw [hranks f hf, hranks' f hmem] at hrank
    exact ⟨hmem, by omega⟩

end Graph

/-! ## Texts -/

open EvalOrder.Graph Session

/-- Reading a text is reading it with a line feed at its end. -/
theorem readFormulas_congr {text text' : String} (h : terminated text.toList = terminated text'.toList) :
    readFormulas text = readFormulas text' := by
  unfold readFormulas Session.read
  rw [h]

/-- A text that goes on behind a line feed is put together from its beginning and the rest. -/
theorem terminated_append {text more : String} (hend : text.toList.getLast? = some '\n') (hmore : more ≠ "") :
    terminated (text ++ more).toList = joined [text, more] := by
  have hne : more.toList ≠ [] := fun hnil => hmore (String.toList_inj.mp (hnil.trans String.toList_empty.symm))
  have hlast : (text.toList ++ more.toList).getLast? = more.toList.getLast? := by
    rw [List.getLast?_append_of_ne_nil _ hne]
  have hfirst : terminated text.toList = text.toList := by rw [terminated, if_pos hend]
  rw [joined_cons, hfirst, String.toList_append, joined, List.flatMap_singleton, terminated, terminated, hlast]
  split
  · rfl
  · rw [List.append_assoc]

/-! ## Refused texts -/

/-- A line that is refused is found and refused with more lines behind it. -/
theorem afterLines_append_of_error {text : String} (hend : text.toList.getLast? = some '\n') (more : String)
    {e : Failure} (h : (afterLines text).2.2 = .error e) : (afterLines (text ++ more)).2.2 = .error e := by
  by_cases hmore : more = ""
  · rw [hmore, String.append_empty]
    exact h
  · have hlines : lineCursors (terminated (text ++ more).toList) =
        (lineCursors (terminated text.toList)).map (Cursor.embed [] (terminated more.toList)) ++
          (lineCursors (terminated more.toList)).map (Cursor.embed (terminated text.toList) []) := by
      have hjoined : joined [more] = terminated more.toList := List.flatMap_singleton _ _
      rw [terminated_append hend hmore, lineCursors_joined_cons, hjoined]
    have hbounded : ∀ c ∈ lineCursors (terminated text.toList), c.Bounded := fun _ hc =>
      bounded_of_mem_lineCursors hc
    -- the first lines are what they are by themselves, for nothing stands before them
    have hfirst := (Session.enterAll_embed [] (terminated more.toList) hbounded {}).2
    rw [revised_moved_nil, ← afterLines, h] at hfirst
    rw [afterLines, hlines, enterAll_append_of_error _ hfirst]
    exact hfirst

/-- **A text that is refused stays refused** when it goes on behind a line feed, and the same is said of it: what is
wrong, at which place, and with which circle. Only undeclared names may still be declared. -/
theorem readFormulas_append_of_error {text : String} (hend : text.toList.getLast? = some '\n') {e : Failure}
    (h : readFormulas text = .error e) (hdeclared : ¬ e.Undeclares) (more : String) :
    readFormulas (text ++ more) = .error e := by
  have hline : (afterLines text).2.2 = .error e := by
    rw [readFormulas_eq] at h
    cases hout : (afterLines text).2.2 with
    | error e' => simpa [hout] using h
    | ok u =>
      simp only [hout] at h
      split at h
      · obtain rfl := Except.error.inj h
        exact absurd ⟨_, _, rfl⟩ hdeclared
      · cases h
  rw [readFormulas_eq, afterLines_append_of_error hend more hline]

/-- The bracket in the second line is found, and the circle in the third is not looked for. -/
theorem readFormulas_stray_bracket :
    readFormulas ("b=1\n a=)\n" ++ "c=c") = .error (.malformed ⟨⟨7, 2, 4⟩, .unknownToken⟩) := by
  refine readFormulas_append_of_error (by decide) (by decide +kernel) ?_ "c=c"
  rintro ⟨place, names, h⟩
  cases h

/-! ## Accepted texts -/

/-- **The graph of a text** that goes on behind a line feed is that of its first lines, with more. -/
theorem continues_readFormulas {text more : String} (hend : text.toList.getLast? = some '\n') {g g' : Graph}
    (hread : readFormulas text = .ok g) (hread' : readFormulas (text ++ more) = .ok g') : g.Continues g' := by
  by_cases hmore : more = ""
  · subst hmore
    rw [String.append_empty] at hread'
    obtain rfl := Except.ok.inj (hread.symm.trans hread')
    exact .refl g
  · obtain ⟨haccepts, hnone, rfl⟩ := readFormulas_eq_ok_iff.mp hread
    have hlines : (enterText {} text).2.2 = .ok () := (afterLines_outcome_iff text).mpr haccepts
    have hholds : (enterText {} text).1.Holds (textLines text) := holds_afterLines hlines
    have hcomplete : (enterText {} text).1.graph.Complete :=
      hholds.complete ((undefined_afterLines hlines).trans hnone)
    have hwhole : terminated (text ++ more).toList =
        terminated (String.ofList (joined ([text] ++ [more]))).toList := by
      rw [terminated_append hend hmore, String.toList_ofList, terminated_joined (by simp)]
      rfl
    have henters : EntersAll {} [text] := ⟨hlines, trivial⟩
    rw [readFormulas_congr hwhole, readFormulas_joined more henters] at hread'
    have hfirst : afterTexts {} [text] = (enterText {} text).1 := rfl
    rw [hfirst] at hread'
    rcases (enterText {} text).1.read_cases more with ⟨hok, hmorelines, hnil, -⟩ | ⟨⟨e, he⟩, -⟩
    · rw [read_of_linked hmorelines hnil] at hread'
      obtain rfl := Except.ok.inj hread'
      have hwf' := wellFormed_enterText hholds.wellFormed more
      exact (continues_enterText hholds.wellFormed hmorelines).link hholds.wellFormed.graph hwf'.graph hcomplete
    · rw [he] at hread'
      cases hread'

/-- **The order of a text** that goes on behind a line feed begins with the order of its first lines: with the same
labels, in formulas of the same handles, which are left with the same ranks and all else the same. A circle among the
first lines is reported of the whole. -/
theorem order_append {text more : String} (hend : text.toList.getLast? = some '\n') {g g' : Graph}
    (hread : readFormulas text = .ok g) (hread' : readFormulas (text ++ more) = .ok g') :
    (∀ ordered ordered', g.order.2 = .ok ordered → g'.order.2 = .ok ordered' →
      (∃ labels labels', orderLabels text = .ok labels ∧ orderLabels (text ++ more) = .ok labels' ∧
        labels <+: labels') ∧
      ordered <+: ordered' ∧ g.formulas <+: g'.formulas ∧
      ∀ f ∈ g.formulas, g'.order.1.vertices[f]? = g.order.1.vertices[f]?) ∧
    ∀ labels, g.order.2 = .error (.cyclic (.acrossLines labels)) →
      g'.order.2 = .error (.cyclic (.acrossLines labels)) := by
  have hcontinues := continues_readFormulas hend hread hread'
  have hlinked := (renders_readFormulas hread).linked
  obtain ⟨herror, hbefore⟩ := order_continues hcontinues hlinked (renders_readFormulas hread').linked
  refine ⟨fun ordered ordered' hordered hordered' => ?_, fun labels hcircle => herror _ hcircle⟩
  obtain ⟨hbegin, hsame⟩ := hbefore ordered ordered' hordered hordered'
  obtain ⟨hperm, -⟩ := rankOf_order hlinked hordered
  have hlabels : ordered.map g.labelOrEmpty = ordered.map g'.labelOrEmpty := by
    refine List.map_congr_left fun f hf => ?_
    rw [labelOrEmpty, labelOrEmpty, nameOf?, nameOf?, hcontinues.vertices f (hperm.mem_iff.mp hf)]
  refine ⟨⟨_, _, orderLabels_of_order hread hordered, orderLabels_of_order hread' hordered', ?_⟩, hbegin,
    hcontinues.formulas, hsame⟩
  rw [hlabels]
  exact hbegin.map _

/-- The line `b=1` stays in front when the lines `c=a` and `a=1` follow it. -/
theorem order_after_one_line : ∃ g g', readFormulas "b=1\n" = .ok g ∧
    readFormulas ("b=1\n" ++ "c=a\na=1") = .ok g' ∧
    (∃ labels labels', orderLabels "b=1\n" = .ok labels ∧ orderLabels ("b=1\n" ++ "c=a\na=1") = .ok labels' ∧
      labels <+: labels') ∧
    g.order.2 = .ok [1] ∧ g'.order.2 = .ok [1, 5, 4] ∧ g'.order.1.vertices[1]? = g.order.1.vertices[1]? := by
  let g : Graph := {
    vertices := #[{ handle := 0, name := "b" }, { handle := 1, name := "b=1", declared := [0] }]
    names := [("b", 0)]
    formulas := [1] }
  let g' : Graph := {
    vertices := #[{ handle := 0, name := "b" }, { handle := 1, name := "b=1", declared := [0] },
      { handle := 2, name := "c", related := [3] }, { handle := 3, name := "a" },
      { handle := 4, name := "c=a", declared := [2], called := [3], related := [5] },
      { handle := 5, name := "a=1", declared := [3] }]
    names := [("b", 0), ("c", 2), ("a", 3)]
    formulas := [1, 4, 5] }
  have hread : readFormulas "b=1\n" = .ok g := by decide +kernel
  have hread' : readFormulas ("b=1\n" ++ "c=a\na=1") = .ok g' := by decide +kernel
  have hordered : g.order.2 = .ok [1] :=
    order_of_ranks (renders_readFormulas hread).linked (.refl _) (by decide +kernel) (by decide +kernel)
  have hordered' : g'.order.2 = .ok [1, 5, 4] :=
    order_of_ranks (renders_readFormulas hread').linked (by decide) (by decide +kernel) (by decide +kernel)
  have hend : "b=1\n".toList.getLast? = some '\n' := by decide
  obtain ⟨hlabels, -, -, hsame⟩ := (order_append hend hread hread').1 _ _ hordered hordered'
  exact ⟨g, g', hread, hread', hlabels, hordered, hordered', hsame 1 List.mem_cons_self⟩

end EvalOrder
