import EvalOrder.Proofs.PairScan
import EvalOrder.Proofs.Prefixes

/-!
# Sorting again

Sorting the formulas makes all of them white before the first is entered. If formulas depend on formulas only, the
search sees nothing but formulas, so what it does is determined by names and dependencies. Which colours and ranks an
earlier sort has left does not matter, whether it came to its end, or failed and left formulas grey on the way.

Results:
* `Arises.listed`: in every graph that operations lead to, formulas are listed as is required here.
* `sort_recolored`, `sort_apart`: sorting the same formulas with other colours and ranks before.
* `order_recolored`: ordering them.
* `Enclosed.orders`: what ordering comes to, whatever is grey before.
* `order_sorted`: an order that was found, with its colours and ranks.
* `order_again`: ordering what has been ordered changes nothing.
* **`order_forgets`**: all of this together.
-/

namespace EvalOrder

namespace Graph

/-- The formulas are vertices, and each is listed once. -/
structure Listed (g : Graph) : Prop where
  once : g.formulas.Nodup
  inRange : ∀ f ∈ g.formulas, f < g.size

/-- Formulas depend on formulas only. Other vertices may be of any colour, and depend on anything. -/
structure Enclosed (g : Graph) : Prop extends Listed g where
  inner : ∀ f ∈ g.formulas, ∀ t, g.Edge f t → t ∈ g.formulas

variable {g g' : Graph}

instance : Decidable g.Listed :=
  decidable_of_iff (g.formulas.Nodup ∧ ∀ f ∈ g.formulas, f < g.size) ⟨fun h => ⟨h.1, h.2⟩, fun h => ⟨h.1, h.2⟩⟩

instance : Decidable g.Enclosed :=
  decidable_of_iff (g.Listed ∧ ∀ f ∈ g.formulas, ∀ t ∈ g.relatedOf f, t ∈ g.formulas)
    ⟨fun h => ⟨h.1, h.2⟩, fun h => ⟨h.toListed, h.inner⟩⟩

theorem Arises.listed (h : g.Arises) : g.Listed := ⟨h.ascending.imp Nat.ne_of_lt, h.inRange.formulas⟩

namespace Enclosed

theorem recolored (hg : g.Enclosed) (h : g.Recolored g') : g'.Enclosed where
  once := h.formulas.symm ▸ hg.once
  inRange f hf := (h.lt_size_iff f).mpr (hg.inRange f (h.formulas ▸ hf))
  inner f hf t ht := by
    rw [h.formulas] at hf ⊢
    rw [h.edge_eq] at ht
    exact hg.inner f hf t ht

/-- With no vertex grey. -/
theorem linked_settled (hg : g.Enclosed) : g.settled.Linked :=
  { hg.recolored (recolored_settled g) with grey := fun h hgrey => absurd hgrey (colorOf_settled g h) }

/-- From formulas only formulas are reached. -/
theorem reached (hg : g.Enclosed) {a b : Handle} (h : Relation.ReflTransGen g.Edge a b) (ha : a ∈ g.formulas) :
    b ∈ g.formulas := by
  rw [← (recolored_settled g).edge_eq] at h
  exact hg.linked_settled.reached h ha

/-- A search that has just begun does not leave the formulas. -/
theorem confined (hg : g.Enclosed) (h : g.Recolored g') : Search.Confined (· ∈ g.formulas) ⟨g', [], 1⟩ :=
  ⟨by simp, fun a b ha hab _ => hg.inner a ha b (h.edge_eq ▸ hab)⟩

end Enclosed

/-! ## Sorting -/

/-- **Sorting does not depend on colours and ranks from before**: it ends in the same way, with the same formulas. -/
theorem sort_recolored (hg : g.Enclosed) (h : g.Recolored g') :
    (g'.sort g'.formulas).2 = (g.sort g.formulas).2 ∧
      ∀ f ∈ g.formulas, (g'.sort g'.formulas).1.vertices[f]? = (g.sort g.formulas).1.vertices[f]? := by
  obtain ⟨g₀, hreset, hsame, hvertices⟩ := resetAll_eq hg.inRange
  obtain ⟨g₀', hreset', -, hvertices'⟩ := resetAll_eq (hg.recolored h).inRange
  -- what the two searches see are formulas, and these have been reset in both graphs
  have halike : Search.Alike (· ∈ g.formulas) (fun _ => False) ⟨g₀, [], 1⟩ ⟨g₀', [], 1⟩ := by
    refine ⟨.of_none _, rfl, rfl, fun i hi _ => ?_⟩
    have hf : i ∈ g.formulas := hi.elim id fun ⟨a, ha, hab⟩ => hg.inner a ha i (hsame.edge_eq ▸ hab)
    rw [hvertices, hvertices', h.formulas, if_pos hf, if_pos hf, h.vertices]
  obtain ⟨hout, hend⟩ := (halike.visitAll (hg.confined hsame) fun _ hi => ⟨hi, id⟩).resolve_left Search.not_stumbles
  rw [sort_of_reset hreset, sort_of_reset hreset', h.formulas]
  exact ⟨hout, fun f hf => hend.seen f (.inl hf) id⟩

/-- Other vertices are left alone. -/
theorem sort_apart (hg : g.Enclosed) {h : Handle} (hh : h ∉ g.formulas) :
    (g.sort g.formulas).1.vertices[h]? = g.vertices[h]? := by
  obtain ⟨g₀, hreset, hsame, hvertices⟩ := resetAll_eq hg.inRange
  obtain ⟨-, htouches⟩ := (hg.confined hsame).visitAll fun i hi _ => hi
  rw [sort_of_reset hreset, htouches.apart h hh, hvertices, if_neg hh]

/-! ## Ordering -/

theorem order_fst (g : Graph) : g.order.1 = (g.sort g.formulas).1 := congrArg Prod.fst g.order_eq_sort

theorem recolored_order (g : Graph) : g.Recolored g.order.1 := g.order_fst ▸ recolored_sort g g.formulas

/-- Formulas of the same ranks are in the same order. -/
theorem ranked_congr (hformulas : g'.formulas = g.formulas) (hranks : ∀ f ∈ g.formulas, g'.rankOf f = g.rankOf f) :
    g'.ranked = g.ranked := by
  have hmap := List.map_mergeSort (r := fun a b => decide (g'.rankOf a ≤ g'.rankOf b))
    (s := fun a b => decide (g.rankOf a ≤ g.rankOf b)) (f := id) (l := g.formulas)
    fun a ha b hb => by rw [hranks a ha, hranks b hb, id, id]
  rw [List.map_id, List.map_id] at hmap
  unfold ranked
  rw [hformulas]
  exact hmap

/-- **Ordering does not depend on colours and ranks from before** either. -/
theorem order_recolored (hg : g.Enclosed) (h : g.Recolored g') :
    g'.order.2 = g.order.2 ∧ ∀ f ∈ g.formulas, g'.order.1.vertices[f]? = g.order.1.vertices[f]? := by
  obtain ⟨hout, hsame⟩ := sort_recolored hg h
  have hformulas : (g'.sort g'.formulas).1.formulas = (g.sort g.formulas).1.formulas :=
    (recolored_sort _ _).formulas.trans (h.formulas.trans (recolored_sort _ _).formulas.symm)
  have hranked : (g'.sort g'.formulas).1.ranked = (g.sort g.formulas).1.ranked := by
    refine ranked_congr hformulas fun f hf => ?_
    rw [(recolored_sort _ _).formulas] at hf
    rw [rankOf, rankOf, hsame f hf]
  rw [order_eq_sort, order_eq_sort, hout, hranked]
  exact ⟨rfl, hsame⟩

/-- **Ordering comes to a topological order or to a circle**, whatever colours there are. -/
theorem Enclosed.orders (hg : g.Enclosed) : Orders g g.order := by
  have hsame := recolored_settled g
  have horders := Graph.orders hg.linked_settled
  obtain ⟨hout, hvertices⟩ := order_recolored hg hsame
  have hend := recolored_order g
  generalize g.settled.order = result at horders hout hvertices
  rw [← Prod.eta g.order, ← hout]
  cases horders with
  | sorted _ hperm hblack htop =>
    refine .sorted hend hperm (fun f hf => ?_) fun i h hi t ht => htop i h hi t (hsame.edge_eq.symm ▸ ht)
    rw [colorOf, ← hvertices f hf]
    exact hblack f hf
  | circular _ hcircle hin hlabels =>
    exact .circular hend ⟨hcircle.nodup, hsame.edge_eq ▸ hcircle.chain⟩ hin (hsame.labels_eq_ok_iff.mp hlabels)

/-- There is either an order or a circle to report. -/
theorem order_ok_or_cyclic (hg : g.Enclosed) :
    (∃ ordered, g.order.2 = .ok ordered) ∨ ∃ labels, g.order.2 = .error (.cyclic (.acrossLines labels)) := by
  have horders := hg.orders
  generalize g.order = result at horders
  cases horders with
  | sorted _ _ _ _ => exact .inl ⟨_, rfl⟩
  | circular _ _ _ _ => exact .inr ⟨_, rfl⟩

/-- An order that was found: all formulas are black, and ranked by their places from one. -/
theorem order_sorted (hg : g.Enclosed) {ordered : List Handle} (h : g.order.2 = .ok ordered) :
    ordered.Perm g.formulas ∧ (∀ f ∈ g.formulas, g.order.1.colorOf f = some .black) ∧
      ordered.map g.order.1.rankOf = (List.range ordered.length).map fun i : Nat => (i + 1 : Int) := by
  obtain ⟨hout, hvertices⟩ := order_recolored hg (recolored_settled g)
  obtain ⟨-, hranks⟩ := rankOf_order hg.linked_settled (hout.trans h)
  have hranks : ∀ f ∈ ordered, f ∈ g.formulas → g.order.1.rankOf f = ordered.idxOf f + 1 := fun f hf hformula => by
    rw [rankOf, ← hvertices f hformula]
    exact hranks f hf
  have horders := hg.orders
  generalize g.order = result at h horders hranks
  cases horders with
  | circular _ _ _ _ => cases h
  | sorted _ hperm hblack _ =>
    obtain rfl := Except.ok.inj h
    refine ⟨hperm, hblack, List.ext_getElem (by simp) fun i hi hi' => ?_⟩
    rw [List.length_map] at hi
    have hmem := List.getElem_mem hi
    rw [List.getElem_map, List.getElem_map, List.getElem_range, hranks _ hmem (hperm.mem_iff.mp hmem),
      (hperm.nodup_iff.mpr hg.once).idxOf_getElem i hi]

/-- Ordering what has been ordered, however that ended, ends in the same way and leaves the same graph. -/
theorem order_again (hg : g.Enclosed) : g.order.1.order = g.order := by
  have hsame := recolored_order g
  obtain ⟨hout, hvertices⟩ := order_recolored hg hsame
  have hagain := recolored_order g.order.1
  refine Prod.ext (eq_of_vertices (fun h => ?_) hagain.names hagain.formulas) hout
  by_cases hh : h ∈ g.formulas
  · exact hvertices h hh
  · rw [order_fst g.order.1, sort_apart (hg.recolored hsame) (hsame.formulas.symm ▸ hh)]

/-- **Sorting forgets earlier sorts.** With other colours and ranks before, ordering the formulas comes to the same
list, or to the same circle, and leaves each of them with the same colour and rank. After a success all are black, and
their ranks are the numbers from one on in the order of the list. To order them again changes nothing. -/
theorem order_forgets (hg : g.Enclosed) (h : g.Recolored g') :
    (g'.order.2 = g.order.2 ∧ ∀ f ∈ g.formulas,
      g'.order.1.colorOf f = g.order.1.colorOf f ∧ g'.order.1.rankOf f = g.order.1.rankOf f) ∧
    ((∃ ordered, g.order.2 = .ok ordered) ∨ ∃ labels, g.order.2 = .error (.cyclic (.acrossLines labels))) ∧
    (∀ ordered, g.order.2 = .ok ordered →
      ordered.Perm g.formulas ∧ (∀ f ∈ g.formulas, g.order.1.colorOf f = some .black) ∧
        ordered.map g.order.1.rankOf = (List.range ordered.length).map fun i : Nat => (i + 1 : Int)) ∧
    g.order.1.order = g.order := by
  obtain ⟨hout, hsame⟩ := order_recolored hg h
  refine ⟨⟨hout, fun f hf => ?_⟩, order_ok_or_cyclic hg, fun _ hordered => order_sorted hg hordered, order_again hg⟩
  rw [colorOf, colorOf, rankOf, rankOf, hsame f hf]
  exact ⟨rfl, rfl⟩

/-- The lines `a=b` and `b=1`, of which the first is grey and the second ranked seventh from before, are ordered as if
they were white. The lines `a=b` and `b=a` are left grey by a sort that fails, and the next one reports the same circle.
-/
theorem order_of_stale_lines : ∃ g g' c : Graph,
    (g.Enclosed ∧ g.Recolored g' ∧ g'.colorOf 2 = some .grey ∧ g'.rankOf 3 = 7 ∧
      g'.order.2 = .ok [3, 2] ∧ g'.order.1.rankOf 3 = 1 ∧ g'.order.1.colorOf 2 = some .black) ∧
    c.Enclosed ∧ c.order.1.colorOf 2 = some .grey ∧
      c.order.1.order.2 = .error (.cyclic (.acrossLines ["a=b", "b=a", "a=b"])) := by
  let g : Graph := {
    vertices := #[{ handle := 0, name := "a", related := [1] }, { handle := 1, name := "b" },
      { handle := 2, name := "a=b", declared := [0], called := [1], related := [3] },
      { handle := 3, name := "b=1", declared := [1] }]
    names := [("a", 0), ("b", 1)]
    formulas := [2, 3] }
  let c : Graph := {
    vertices := #[{ handle := 0, name := "a", related := [1] }, { handle := 1, name := "b", related := [0] },
      { handle := 2, name := "a=b", declared := [0], called := [1], related := [3] },
      { handle := 3, name := "b=a", declared := [1], called := [0], related := [2] }]
    names := [("a", 0), ("b", 1)]
    formulas := [2, 3] }
  have hread : readFormulas "a=b\nb=1" = .ok g := by decide +kernel
  have hg : g.Enclosed := by decide
  have hc : c.Enclosed := by decide
  have hstale : g.Recolored ((g.update 2 Vertex.enter).update 3 (Vertex.leave 7)) :=
    (recolored_update g 2 Vertex.reset_enter).trans (recolored_update _ 3 (Vertex.reset_leave 7))
  have hordered : g.order.2 = .ok [3, 2] :=
    order_of_ranks (renders_readFormulas hread).linked (by decide) (by decide +kernel) (by decide +kernel)
  have hcircle : c.order.2 = .error (.cyclic (.acrossLines ["a=b", "b=a", "a=b"])) := by decide +kernel
  have hgrey : c.order.1.colorOf 2 = some .grey := by decide +kernel
  obtain ⟨⟨hout, hsame⟩, -, hsorted, -⟩ := order_forgets hg hstale
  obtain ⟨-, hblack, hranks⟩ := hsorted _ hordered
  obtain ⟨-, -, -, hagain⟩ := order_forgets hc (.refl c)
  refine ⟨g, _, c, ⟨hg, hstale, by decide, by decide, hout.trans hordered, ?_, ?_⟩, hc, hgrey, ?_⟩
  · rw [(hsame 3 (by decide)).2]
    exact (List.cons.inj hranks).1
  · rw [(hsame 2 (by decide)).1]
    exact hblack 2 (by decide)
  · rw [hagain]
    exact hcircle

end Graph

end EvalOrder
