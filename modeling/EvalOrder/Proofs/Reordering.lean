import EvalOrder.Proofs.Evaluation

/-!
# The lines of a text in another order

If the lines of a text are put in another order, the names get other handles, the formulas stand elsewhere and the
search begins with others. But what is asked of a text that is accepted is asked of its lines one by one, or of all the
names that they declare together; and there is an order unless some line calls itself through others, which the place
of a line has nothing to do with. So the text in its new order is accepted if it was before, is ordered if it was
before, and has the same labels.

Results:
* `exists_readFormulas_of_perm`: a text stays accepted.
* `lineCalls_of_perm`: its lines call the same lines.
* **`orderLabels_perm`**: both with the answer.
-/

namespace EvalOrder

open EvalOrder.Graph

variable {text text' : String}

/-- A text is accepted with its lines in any order. -/
theorem exists_readFormulas_of_perm (hperm : (textLines text).Perm (textLines text'))
    (h : ∃ g, readFormulas text = .ok g) : ∃ g, readFormulas text' = .ok g := by
  obtain ⟨g, hread⟩ := h
  obtain ⟨haccepts, hnone, -⟩ := readFormulas_eq_ok_iff.mp hread
  have hnone' : undeclared text' = [] := by
    rw [undeclared_eq_nil_iff] at hnone ⊢
    intro line hline x hx
    obtain ⟨other, hother, hdeclared⟩ := hnone line (hperm.mem_iff.mpr hline) x hx
    exact ⟨other, hperm.mem_iff.mp hother, hdeclared⟩
  exact ⟨_, readFormulas_eq_ok_iff.mpr ⟨haccepts.perm hperm, hnone', rfl⟩⟩

/-- Which lines a line calls has nothing to do with their places. -/
theorem lineCalls_of_perm (hperm : (textLines text).Perm (textLines text')) : LineCalls text = LineCalls text' := by
  funext a b
  rw [LineCalls, LineCalls, hperm.mem_iff, hperm.mem_iff]

/-- Ordering an accepted text is cyclic exactly if some line calls itself through others. -/
theorem exists_cyclic_iff {g : Graph} (hread : readFormulas text = .ok g) :
    (∃ c, g.order.2 = .error (.cyclic c)) ↔ ∃ line, Relation.TransGen (LineCalls text) line line := by
  rw [← order_error_iff_calls hread]
  constructor
  · rintro ⟨c, hc⟩
    exact ⟨_, hc⟩
  · rintro ⟨e, he⟩
    obtain ⟨labels, rfl⟩ := cyclic_of_order_error (renders_readFormulas hread).linked he
    exact ⟨_, he⟩

/-- **The lines of a text in another order.** The text is accepted if it was before; then its order is cyclic if it was
before, and otherwise the labels are the same in some order. -/
theorem orderLabels_perm (hperm : (textLines text).Perm (textLines text')) :
    ((∃ g, readFormulas text = .ok g) ↔ ∃ g, readFormulas text' = .ok g) ∧
    ∀ g g', readFormulas text = .ok g → readFormulas text' = .ok g' →
      ((∃ c, g.order.2 = .error (.cyclic c)) ↔ ∃ c, g'.order.2 = .error (.cyclic c)) ∧
      ∀ ordered ordered', g.order.2 = .ok ordered → g'.order.2 = .ok ordered' →
        ∃ labels labels', orderLabels text = .ok labels ∧ orderLabels text' = .ok labels' ∧
          labels.Perm labels' := by
  refine ⟨⟨exists_readFormulas_of_perm hperm, exists_readFormulas_of_perm hperm.symm⟩, ?_⟩
  intro g g' hread hread'
  refine ⟨?_, fun ordered ordered' hordered hordered' => ?_⟩
  · rw [exists_cyclic_iff hread, exists_cyclic_iff hread', lineCalls_of_perm hperm]
  · have hlabels := orderLabels_of_order hread hordered
    have hlabels' := orderLabels_of_order hread' hordered'
    have hlines := hperm.map unindented
    exact ⟨_, _, hlabels, hlabels',
      (perm_of_orderLabels hlabels).trans (hlines.trans (perm_of_orderLabels hlabels').symm)⟩

/-- The lines `c=1`, `b=1` and `a=b` are in order, also when the first of them comes last. -/
theorem orderLabels_moved_line :
    ∃ labels labels', orderLabels "c=1\nb=1\na=b\n" = .ok labels ∧ orderLabels "b=1\na=b\nc=1" = .ok labels' ∧
      labels.Perm labels' := by
  let g : Graph := {
    vertices := #[{ handle := 0, name := "c" }, { handle := 1, name := "c=1", declared := [0] },
      { handle := 2, name := "b" }, { handle := 3, name := "b=1", declared := [2] },
      { handle := 4, name := "a", related := [2] },
      { handle := 5, name := "a=b", declared := [4], called := [2], related := [3] }]
    names := [("c", 0), ("b", 2), ("a", 4)]
    formulas := [1, 3, 5] }
  let g' : Graph := {
    vertices := #[{ handle := 0, name := "b" }, { handle := 1, name := "b=1", declared := [0] },
      { handle := 2, name := "a", related := [0] },
      { handle := 3, name := "a=b", declared := [2], called := [0], related := [1] },
      { handle := 4, name := "c" }, { handle := 5, name := "c=1", declared := [4] }]
    names := [("b", 0), ("a", 2), ("c", 4)]
    formulas := [1, 3, 5] }
  have hread : readFormulas "c=1\nb=1\na=b\n" = .ok g := by decide +kernel
  have hread' : readFormulas "b=1\na=b\nc=1" = .ok g' := by decide +kernel
  have hordered : g.order.2 = .ok [1, 3, 5] :=
    order_of_ranks (renders_readFormulas hread).linked (.refl _) (by decide +kernel) (by decide +kernel)
  have hordered' : g'.order.2 = .ok [1, 3, 5] :=
    order_of_ranks (renders_readFormulas hread').linked (.refl _) (by decide +kernel) (by decide +kernel)
  have hlines : textLines "c=1\nb=1\na=b\n" = ["c=1", "b=1", "a=b"] := by decide +kernel
  have hlines' : textLines "b=1\na=b\nc=1" = ["b=1", "a=b", "c=1"] := by decide +kernel
  have hperm : (textLines "c=1\nb=1\na=b\n").Perm (textLines "b=1\na=b\nc=1") := by
    rw [hlines, hlines']
    exact (List.perm_append_singleton "c=1" ["b=1", "a=b"]).symm
  exact ((orderLabels_perm hperm).2 g g' hread hread').2 _ _ hordered hordered'

end EvalOrder
