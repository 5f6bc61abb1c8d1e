import EvalOrder.Proofs.Evaluation
import EvalOrder.Proofs.Recursion

/-!
# Ordered texts

A text whose lines call only names of earlier lines is in order already, and its lines are returned as they stand.
For its formulas then stand in a topological order, so whenever the search comes to one of them, all that it
depends on is black: it is left at once, and gets its place in the text as its rank.

What is printed for any text is such a text. Its lines are those of the text without the blanks in front, in
another order; so it is accepted, and printed again as it is.

Results:
* `visit_of_black`: a visit with nothing left to do.
* `InOrder.visitEach`, **`order_of_topological`**: formulas in a topological order are returned in it.
* `Renders.topological_iff`: an order is topological if each line calls names of earlier ones.
* `acceptsAll_unindented`: lines may be unindented.
* **`run_stable`**: ordered texts keep their order, and what is printed is printed again.
-/

namespace EvalOrder

open EvalOrder.Graph Recursion

/-! ## Searching in order -/

namespace Recursion

variable {g : Graph} {rank : Nat} {path : List Handle}

/-- Black vertices are passed over. -/
theorem follow_of_all_black {ts : List Handle} (h : ∀ t ∈ ts, g.colorOf t = some .black) :
    (follow g rank path ts).1 = ⟨g, rank, .ok ()⟩ := by
  induction ts with
  | nil => exact follow_nil
  | cons t ts ih =>
    obtain ⟨ht, hts⟩ := List.forall_mem_cons.mp h
    rw [follow_of_black ht, ih hts]

/-- A vertex that depends on black ones only is left at once. -/
theorem visit_of_black {h : Handle} (hw : g.colorOf h = some .white)
    (hblack : ∀ t ∈ g.relatedOf h, g.colorOf t = some .black) :
    (visit g rank path h hw).1 =
      ⟨(g.update h Vertex.enter).update h (Vertex.leave rank), rank + 1, .ok ()⟩ := by
  have hentered : ∀ t ∈ g.relatedOf h, (g.update h Vertex.enter).colorOf t = some .black := by
    intro t ht
    have hne : h ≠ t := by
      intro he
      have ht' := hblack t ht
      rw [← he, hw] at ht'
      cases ht'
    rw [colorOf_enter (lt_size_of_colorOf hw), if_neg hne, hblack t ht]
  rw [visit_eq, follow_of_all_black hentered]
  rfl

/-- The vertices `left` have been visited one after another, and nothing else. -/
structure InOrder (old : Handle → Int) (g : Graph) (rank : Nat) (left : List Handle) : Prop where
  black : ∀ h ∈ left, g.colorOf h = some .black
  rank : rank = left.length + 1
  ranks : ∀ h, g.rankOf h = if h ∈ left then (left.idxOf h + 1 : Int) else old h

namespace InOrder

variable {old : Handle → Int} {left : List Handle}

/-- One more vertex, of which all that it depends on has been visited. -/
theorem visit (h : InOrder old g rank left) {v : Handle} (hw : g.colorOf v = some .white)
    (hrelated : g.relatedOf v ⊆ left) :
    ∃ g', (Recursion.visit g rank [] v hw).1 = ⟨g', rank + 1, .ok ()⟩ ∧ g.Recolored g' ∧
      (∀ i, i ≠ v → g'.colorOf i = g.colorOf i) ∧ InOrder old g' (rank + 1) (left ++ [v]) := by
  have hlt : v < g.size := lt_size_of_colorOf hw
  have hlt' : v < (g.update v Vertex.enter).size := by simpa using hlt
  have hfresh : v ∉ left := by
    intro hmem
    have hblack := h.black v hmem
    rw [hw] at hblack
    cases hblack
  have hcolor : ∀ i, ((g.update v Vertex.enter).update v (Vertex.leave rank)).colorOf i =
      if v = i then some .black else g.colorOf i := by
    intro i
    rw [colorOf_leave hlt', colorOf_enter hlt]
    split <;> rfl
  refine ⟨_, visit_of_black hw fun t ht => h.black t (hrelated ht), ?_, ?_, ?_⟩
  · exact (recolored_update g v Vertex.reset_enter).trans (recolored_update _ v (Vertex.reset_leave rank))
  · intro i hi
    rw [hcolor, if_neg (Ne.symm hi)]
  · constructor
    case black =>
      intro i hi
      rw [hcolor]
      split
      · rfl
      · rename_i hne
        refine h.black i ((List.mem_append.mp hi).resolve_right fun hi => hne ?_)
        exact (List.mem_singleton.mp hi).symm
    case rank => rw [h.rank, List.length_append, List.length_singleton]
    case ranks =>
      rw [h.rank]
      exact Search.rankOf_leave_concat hlt' hfresh fun i => (rankOf_enter g v i).trans (h.ranks i)

/-- Vertices in a topological order are visited in this order. -/
theorem visitEach : ∀ {handles left : List Handle} {g : Graph} {rank : Nat}, InOrder old g rank left →
    handles.Nodup → (∀ h ∈ handles, g.colorOf h = some .white) →
    (∀ (i : Nat) (h : Handle), handles[i]? = some h → g.relatedOf h ⊆ left ++ handles.take i) →
    ∃ g' rank', Recursion.visitEach g rank handles = ⟨g', rank', .ok ()⟩ ∧ g.Recolored g' ∧
      InOrder old g' rank' (left ++ handles)
  | [], left, g, rank, h, _, _, _ => ⟨g, rank, rfl, .refl g, by rwa [List.append_nil]⟩
  | v :: handles, left, g, rank, h, honce, hwhite, hrelated => by
    obtain ⟨hnot, honce⟩ := List.nodup_cons.mp honce
    obtain ⟨hw, hwhite⟩ := List.forall_mem_cons.mp hwhite
    have hv : g.relatedOf v ⊆ left := by simpa using hrelated 0 v rfl
    obtain ⟨g', hvisit, hsame, hcolor, hnext⟩ := h.visit hw hv
    have hwhite' : ∀ i ∈ handles, g'.colorOf i = some .white := by
      intro i hi
      rw [hcolor i (fun he => hnot (he ▸ hi)), hwhite i hi]
    have hrelated' : ∀ (i : Nat) (k : Handle), handles[i]? = some k →
        g'.relatedOf k ⊆ (left ++ [v]) ++ handles.take i := by
      intro i k hk
      rw [hsame.relatedOf, List.append_assoc]
      exact hrelated (i + 1) k hk
    obtain ⟨g'', rank'', heach, hsame', hend⟩ := hnext.visitEach honce hwhite' hrelated'
    refine ⟨g'', rank'', ?_, hsame.trans hsame', by rwa [List.append_assoc] at hend⟩
    rw [visitEach_of_white hw, hvisit, Visited.andThen_of_ok rfl, heach]

end InOrder

end Recursion

namespace Graph

theorem WellFormed.edge_lt {g : Graph} (hg : g.WellFormed) {a b : Handle} (h : g.Edge a b) : b < g.size := by
  have ha := lt_size_of_edge h
  obtain ⟨v, hv⟩ := exists_vertex ha
  rw [Edge, relatedOf_eq hv] at h
  rcases hg.covered a ha with hn | hf
  · exact hg.isName_lt ((hg.ofName hn hv).2.2 b h)
  · exact hg.inRange b ((hg.ofFormula hf hv).2.2 b h).1

/-- **Formulas in a topological order are returned in it.** -/
theorem order_of_topological {g : Graph} (hg : g.Linked) (hclosed : ∀ a b, g.Edge a b → b < g.size)
    (htop : g.Topological g.formulas) : g.order.2 = .ok g.formulas := by
  obtain ⟨g₀, hreset, hsame, hvertices⟩ := resetAll_eq hg.inRange
  have hcolor := colorOf_resetAll hvertices hg.inRange
  have hstart : InOrder g₀.rankOf g₀ 1 [] := ⟨by simp, rfl, by simp⟩
  have hwhite : ∀ f ∈ g.formulas, g₀.colorOf f = some .white := by
    intro f hf
    rw [hcolor, if_pos hf]
  have hrelated : ∀ (i : Nat) (f : Handle), g.formulas[i]? = some f →
      g₀.relatedOf f ⊆ [] ++ g.formulas.take i := by
    intro i f hf t ht
    rw [hsame.relatedOf] at ht
    exact htop i f hf t ht
  obtain ⟨g', rank', heach, hsame', hend⟩ := hstart.visitEach hg.once hwhite hrelated
  rw [List.nil_append] at hend
  rw [resetAll_eq_foldl hg.inRange] at hreset
  obtain ⟨rfl, -⟩ := Prod.mk.inj hreset
  have hsort : g.sort g.formulas = (g', .ok ()) := by
    rw [sort_eq hclosed hg.inRange hg.grey, Recursion.sort, heach]
  have hformulas : g'.formulas = g.formulas := (hsame.trans hsame').formulas
  have hranked : g'.ranked = g.formulas := by
    refine ranked_eq hg.once (by rw [hformulas]) ?_
    intro f hf
    rw [hend.ranks, if_pos hf]
  unfold order
  simp only [hsort, hranked]

end Graph

/-! ## Lines in order -/

/-- Each line calls only names that lines before it declare. -/
def CallsEarlier (ls : List String) : Prop :=
  ∀ (k : Nat) (line : String), ls[k]? = some line → ∀ x ∈ calledNames line,
    ∃ j < k, ∃ earlier, ls[j]? = some earlier ∧ x ∈ declaredNames earlier

/-- Blanks in front make no difference. -/
theorem callsEarlier_map_unindented {ls : List String} : CallsEarlier (ls.map unindented) ↔ CallsEarlier ls := by
  simp [CallsEarlier, List.getElem?_map]

theorem mem_take_iff {α : Type} {l : List α} {k : Nat} {a : α} : a ∈ l.take k ↔ ∃ j < k, l[j]? = some a := by
  simp only [List.mem_iff_getElem?, List.getElem?_take]
  constructor
  · rintro ⟨j, hj⟩
    split at hj
    · exact ⟨j, ‹_›, hj⟩
    · cases hj
  · rintro ⟨j, hlt, hj⟩
    exact ⟨j, by rw [if_pos hlt, hj]⟩

namespace Graph.Renders

variable {g : Graph} {text : String}

/-- **An order of the formulas is topological if their labels call names of earlier ones.** -/
theorem topological_iff (h : g.Renders text) {ordered : List Handle} (hperm : ordered.Perm g.formulas) :
    g.Topological ordered ↔ CallsEarlier (ordered.map g.labelOrEmpty) := by
  choose! lineOf hline v hv using fun i (hi : i ∈ g.formulas) => h.exists_line hi
  have hformula : ∀ {i : Nat} {f : Handle}, ordered[i]? = some f → f ∈ g.formulas := fun hf =>
    hperm.mem_iff.mp (List.mem_of_getElem? hf)
  have hlabels : ordered.map g.labelOrEmpty = (ordered.map lineOf).map unindented := by
    rw [List.map_map]
    refine List.map_congr_left fun f hf => ?_
    rw [labelOrEmpty, (hv f (hperm.mem_iff.mp hf)).nameOf?, Option.getD_some, Function.comp]
  have hedge : ∀ {a b : Handle}, a ∈ g.formulas → b ∈ g.formulas →
      (g.Edge a b ↔ ∃ x ∈ calledNames (lineOf a), x ∈ declaredNames (lineOf b)) := by
    intro a b ha hb
    rw [h.edge_iff ha hb (hv a ha) (hv b hb) (hline a ha) (hline b hb)]
    exact ⟨fun hcalls => hcalls.2.2, fun hcalls => ⟨hline a ha, hline b hb, hcalls⟩⟩
  rw [hlabels, callsEarlier_map_unindented]
  constructor
  · intro htop k line hk x hx
    rw [List.getElem?_map] at hk
    obtain ⟨a, hka, rfl⟩ := Option.map_eq_some_iff.mp hk
    obtain ⟨other, hother, hdeclared⟩ := h.complete _ (hline a (hformula hka)) x hx
    obtain ⟨b, hb, w, hw⟩ := h.exists_formula hother
    have hlabel : unindented other = unindented (lineOf b) :=
      Option.some.inj (hw.nameOf?.symm.trans (hv b hb).nameOf?)
    have hx' : x ∈ declaredNames (lineOf b) := by
      rw [← declaredNames_unindented, ← hlabel, declaredNames_unindented]
      exact hdeclared
    have hab := (hedge (hformula hka) hb).mpr ⟨x, hx, hx'⟩
    obtain ⟨j, hj, hjb⟩ := mem_take_iff.mp (htop k a hka b hab)
    exact ⟨j, hj, lineOf b, by rw [List.getElem?_map, hjb, Option.map_some], hx'⟩
  · intro hcalls k a hka b hab
    have ha := hformula hka
    have hb := h.linked.inner a ha b hab
    obtain ⟨x, hx, hx'⟩ := (hedge ha hb).mp hab
    obtain ⟨j, hj, earlier, hearlier, hdeclared⟩ := hcalls k (lineOf a) (by rw [List.getElem?_map, hka]; rfl) x hx
    rw [List.getElem?_map] at hearlier
    obtain ⟨c, hjc, rfl⟩ := Option.map_eq_some_iff.mp hearlier
    have hc := hformula hjc
    obtain rfl := h.formula_unique hb hc (hv b hb) (hv c hc) hx' hdeclared
    exact mem_take_iff.mpr ⟨j, hj, hjc⟩

end Graph.Renders

/-- The labels of an ordered text are ordered. -/
theorem callsEarlier_of_orderLabels {text : String} {labels : List String} (h : orderLabels text = .ok labels) :
    CallsEarlier labels := by
  have hanswer := answer_orderLabels text
  rw [h] at hanswer
  cases hanswer with
  | ordered hread _ hperm htop hlabels =>
    rw [eq_map_of_labels hlabels]
    exact ((renders_readFormulas hread).topological_iff hperm).mp htop

/-- The lines of a text that is in order are returned as they stand. -/
theorem orderLabels_of_callsEarlier {text : String} {g : Graph} (hread : readFormulas text = .ok g)
    (hcalls : CallsEarlier (textLines text)) : orderLabels text = .ok ((textLines text).map unindented) := by
  have hrenders := renders_readFormulas hread
  have htop : g.Topological g.formulas := by
    rw [hrenders.topological_iff (.refl _), hrenders.map_label, callsEarlier_map_unindented]
    exact hcalls
  have horder := order_of_topological hrenders.linked (fun _ _ => hrenders.wellFormed.edge_lt) htop
  rw [orderLabels_of_order hread horder, hrenders.map_label]

/-! ## What is printed -/

theorem unindented_unindented (line : String) : unindented (unindented line) = unindented line := by
  rw [unindented, unindented, String.toList_ofList, List.dropWhile_idempotent]

/-- A line is the same declaration without the blanks in front. -/
theorem Declares.unindented {line : String} {names : List String} {sums : List (List Word)}
    (h : Declares line names sums) : Declares (EvalOrder.unindented line) names sums := by
  constructor
  · rw [failure?_lexed, EvalOrder.unindented, String.toList_ofList, outline_dropWhile]
    exact (failure?_lexed line).mp h.lexes
  · rw [words_unindented]
    exact h.derives

/-- Accepted lines are accepted without the blanks in front. -/
theorem acceptsAll_unindented {ls : List String} (h : AcceptsAll [] ls) : AcceptsAll [] (ls.map unindented) := by
  obtain ⟨hdeclares, ⟨honce, -⟩, hapart⟩ := acceptsAll_iff.mp h
  refine acceptsAll_iff.mpr ⟨?_, ⟨by simpa [List.flatMap_map] using honce, by simp⟩, ?_⟩
  · intro label hl
    obtain ⟨line, hmem, rfl⟩ := List.mem_map.mp hl
    obtain ⟨names, sums, hd, hlen⟩ := hdeclares line hmem
    exact ⟨names, sums, hd.unindented, hlen⟩
  · intro label hl
    obtain ⟨line, hmem, rfl⟩ := List.mem_map.mp hl
    simpa using hapart line hmem

/-- What is printed for a text is in order, and is accepted. -/
theorem orderLabels_stdout {r : Report} {text : String} (h : r.Lists text) :
    orderLabels r.stdout = orderLabels text := by
  obtain ⟨labels, hlabels, -, hstdout⟩ := h
  obtain ⟨hne, hall⟩ := labels_of_orderLabels hlabels
  have hlines : textLines r.stdout = labels := by
    rw [hstdout]
    exact textLines_join hne fun l hl => (hall l hl).2
  have hperm := perm_of_orderLabels hlabels
  have hcalls := callsEarlier_of_orderLabels hlabels
  obtain ⟨⟨g, hread⟩, -⟩ := orderLabels_eq_ok_iff.mp ⟨labels, hlabels⟩
  have haccepts : AcceptsAll [] (textLines r.stdout) := by
    rw [hlines]
    exact (acceptsAll_unindented (readFormulas_eq_ok_iff.mp hread).1).perm hperm.symm
  have hcomplete : undeclared r.stdout = [] := by
    rw [undeclared_eq_nil_iff, hlines]
    intro label hl x hx
    obtain ⟨k, hk⟩ := List.mem_iff_getElem?.mp hl
    obtain ⟨j, -, earlier, hj, hdeclared⟩ := hcalls k label hk x hx
    exact ⟨earlier, List.mem_of_getElem? hj, hdeclared⟩
  have hread' := readFormulas_eq_ok_iff.mpr ⟨haccepts, hcomplete, rfl⟩
  rw [orderLabels_of_callsEarlier hread' (hlines.symm ▸ hcalls), hlines, hlabels]
  have hunindented : ∀ label ∈ labels, unindented label = label := by
    intro label hl
    obtain ⟨line, -, rfl⟩ := List.mem_map.mp (hperm.mem_iff.mp hl)
    exact unindented_unindented line
  rw [List.map_congr_left hunindented, List.map_id']

/-- **Ordered texts keep their order.** If each line of an accepted text calls only names that lines before it
declare, the lines are returned as they stand; and what is printed for any text that can be ordered is printed
for it again. -/
theorem run_stable :
    (∀ text, (∃ g, readFormulas text = .ok g) → CallsEarlier (textLines text) →
      orderLabels text = .ok ((textLines text).map unindented)) ∧
    ∀ (logger : String) (showCycle : Bool) (text : String) (r : Report), run logger showCycle text = .ok r →
      r.status = 0 → ∀ (logger' : String) (showCycle' : Bool),
        ∃ r', run logger' showCycle' r.stdout = .ok r' ∧ r'.status = 0 ∧ r'.stdout = r.stdout := by
  constructor
  · rintro text ⟨g, hread⟩ hcalls
    exact orderLabels_of_callsEarlier hread hcalls
  · intro logger showCycle text r hrun hstatus logger' showCycle'
    obtain ⟨r₀, hrun₀, hcases⟩ := run_cases logger showCycle text
    obtain rfl := Except.ok.inj (hrun.symm.trans hrun₀)
    have hlists : r.Lists text := by
      rcases hcases with ⟨hlists, -⟩ | ⟨hmalformed, -⟩ | ⟨hcyclic, -⟩
      · exact hlists
      · exact absurd hstatus (Report.status_ne_of_one hmalformed.1)
      · exact absurd hstatus (Report.status_ne_of_one hcyclic.1)
    obtain ⟨labels, hlabels, -, hstdout⟩ := hlists
    have hagain := (orderLabels_stdout ⟨labels, hlabels, hstatus, hstdout⟩).trans hlabels
    obtain ⟨r', hrun', hprint⟩ := exists_of_map_eq_ok (run_of_labels hagain logger' showCycle')
    obtain ⟨hstatus', hstdout'⟩ := Prod.mk.inj hprint
    exact ⟨r', hrun', hstatus', hstdout'.trans hstdout.symm⟩

/-- The lines `a=1` and `b=a`, the second indented, are printed in this order, and so again. -/
theorem run_ordered_lines :
    (∃ g, readFormulas "a=1\n  b=a" = .ok g) ∧ CallsEarlier (textLines "a=1\n  b=a") ∧
      orderLabels "a=1\n  b=a" = .ok ["a=1", "b=a"] ∧
      ∃ r, run "order" false "a=1\n  b=a" = .ok r ∧ r.status = 0 ∧ r.stdout = "a=1\nb=a\n" ∧
        ∃ r', run "order" true "a=1\nb=a\n" = .ok r' ∧ r'.status = 0 ∧ r'.stdout = "a=1\nb=a\n" := by
  have hlines : textLines "a=1\n  b=a" = ["a=1", "  b=a"] := by decide +kernel
  have hdeclares : Declares "  b=a" ["b"] [[⟨.ident, "a"⟩]] := declares_of_outline (by cbv) (.inl rfl)
  have hread := exists_readFormulas_of_pair hlines declares_a_1 hdeclares (by decide) (by simp [idents])
    (by simp [idents])
  have hcalls : CallsEarlier (textLines "a=1\n  b=a") := by
    rw [hlines]
    intro k line hk x hx
    obtain _ | _ | k := k
    · obtain rfl := Option.some.inj hk
      simp [declares_a_1.calledNames_eq, idents] at hx
    · obtain rfl := Option.some.inj hk
      have hx : x = "a" := by simpa [hdeclares.calledNames_eq, idents] using hx
      exact ⟨0, by decide, "a=1", rfl, by simp [declares_a_1.declaredNames_eq, hx]⟩
    · cases hk
  have hunindented : (textLines "a=1\n  b=a").map unindented = ["a=1", "b=a"] := by decide +kernel
  have hlabels := run_stable.1 _ hread hcalls
  rw [hunindented] at hlabels
  obtain ⟨r, hrun, hprint⟩ := exists_of_map_eq_ok (run_of_labels hlabels "order" false)
  obtain ⟨hstatus, hstdout⟩ := Prod.mk.inj hprint
  have hstdout : r.stdout = "a=1\nb=a\n" := hstdout.trans (by decide +kernel)
  refine ⟨hread, hcalls, hlabels, r, hrun, hstatus, hstdout, ?_⟩
  rw [← hstdout]
  exact run_stable.2 _ _ _ r hrun hstatus "order" true

end EvalOrder
