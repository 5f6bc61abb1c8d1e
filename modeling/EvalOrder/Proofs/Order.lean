import EvalOrder.Graph.OrderCheck
import EvalOrder.Proofs.Sorting
import Mathlib.Data.List.Perm.Subperm

/-!
# The order of the formulas

In a graph whose formulas depend on formulas only (`Linked`), sorting gives every formula a rank above those
of the formulas it depends on, or else there is a circle. The list of the formulas by rank is then the list of
them in the order in which the search left them, and it passes the check that is made of it afterwards.

Results:
* `leaves`: sorting the formulas leaves them in a topological order, or comes to a circle of edges.
* `order_of_ranks`: the ranks that sorting gives tell the order.
* `orders`: so ordering comes to a topological order or to a circle.
* `rankOf_order`: the rank of a formula is its place in the order.
* **`order_error_iff`**: it fails exactly if some formula depends on itself.
* **`checkOrder_eq_ok_iff`**: what the check accepts.
* `checkOrder_of_orders`: it accepts the order.
-/

namespace EvalOrder

namespace Graph

open Search

/-- Formulas depend on formulas only, and a search has left no other vertex grey. -/
structure Linked (g : Graph) : Prop where
  once : g.formulas.Nodup
  inRange : ∀ f ∈ g.formulas, f < g.size
  inner : ∀ f ∈ g.formulas, ∀ t, g.Edge f t → t ∈ g.formulas
  grey : ∀ h, g.colorOf h = some .grey → h ∈ g.formulas

/-- Whatever stands in the list comes after all that it depends on. -/
def Topological (g : Graph) (ordered : List Handle) : Prop :=
  ∀ (i : Nat) (h : Handle), ordered[i]? = some h → ∀ t, g.Edge h t → t ∈ ordered.take i

/-- What ordering the formulas comes to. -/
inductive Orders (g : Graph) : Graph × Except Failure (List Handle) → Prop
  | sorted {g' : Graph} {ordered : List Handle} : g.Recolored g' → ordered.Perm g.formulas →
      (∀ f ∈ g.formulas, g'.colorOf f = some .black) → g.Topological ordered → Orders g (g', .ok ordered)
  | circular {g' : Graph} {h : Handle} {rest : List Handle} {labels : List String} : g.Recolored g' →
      g.Circle h rest → (∀ i ∈ h :: rest, i ∈ g.formulas) → g.labels (h :: (rest ++ [h])) = .ok labels →
      Orders g (g', .error (.cyclic (.acrossLines labels)))

namespace Linked

variable {g : Graph}

/-- From formulas only formulas are reached. -/
theorem reached (hg : g.Linked) {a b : Handle} (h : Relation.ReflTransGen g.Edge a b)
    (ha : a ∈ g.formulas) : b ∈ g.formulas := by
  induction h with
  | refl => exact ha
  | tail _ hedge ih => exact hg.inner _ ih _ hedge

theorem closedFrom (hg : g.Linked) : g.ClosedFrom g.formulas := fun _ hr a b hpath hab =>
  hg.inRange b (hg.inner a (hg.reached hpath hr) b hab)

end Linked

theorem Recolored.labels_eq_ok_iff {g g' : Graph} (h : g.Recolored g') {hs : List Handle}
    {ls : List String} : g'.labels hs = .ok ls ↔ g.labels hs = .ok ls := by
  rw [Graph.labels_eq_ok_iff, Graph.labels_eq_ok_iff]
  simp only [h.nameOf?]

/-! ## By rank -/

/-- The formulas by rank are the formulas in the order of leaving. -/
theorem ranked_eq {g : Graph} {left : List Handle} (honce : left.Nodup) (hperm : left.Perm g.formulas)
    (hranks : ∀ h ∈ left, g.rankOf h = (left.idxOf h + 1 : Int)) : g.ranked = left := by
  have hsorted : g.ranked.Pairwise fun a b => (decide (g.rankOf a ≤ g.rankOf b)) = true :=
    List.pairwise_mergeSort (fun a b c hab hbc => by simp at hab hbc ⊢; omega)
      (fun a b => by simp; omega) g.formulas
  have hleft : left.Pairwise fun a b => (decide (g.rankOf a ≤ g.rankOf b)) = true := by
    refine List.pairwise_iff_getElem.mpr ?_
    intro i j hi hj hij
    rw [decide_eq_true_iff, hranks _ (List.getElem_mem hi), hranks _ (List.getElem_mem hj),
      honce.idxOf_getElem i hi, honce.idxOf_getElem j hj]
    omega
  have hmem : g.ranked.Perm left := (List.mergeSort_perm _ _).trans hperm.symm
  refine hmem.eq_of_pairwise ?_ hsorted hleft
  intro a b ha hb hab hba
  have ha := hmem.mem_iff.mp ha
  rw [decide_eq_true_iff, hranks a ha, hranks b hb] at hab hba
  exact (List.idxOf_inj ha).mp (by omega)

/-- What sorting the formulas comes to: they are left in a topological order and ranked by it, or there is a circle. -/
inductive Leaves (g : Graph) : Graph × Except Failure Unit → Prop
  | done {g' : Graph} {left : List Handle} : g.Recolored g' → left.Perm g.formulas →
      (∀ f ∈ g.formulas, g'.colorOf f = some .black) → (∀ f ∈ left, g'.rankOf f = left.idxOf f + 1) →
      g.Topological left → Leaves g (g', .ok ())
  | circular {g' : Graph} {h : Handle} {rest : List Handle} {labels : List String} : g.Recolored g' →
      g.Circle h rest → (∀ i ∈ h :: rest, i ∈ g.formulas) → g.labels (h :: (rest ++ [h])) = .ok labels →
      Leaves g (g', .error (.cyclic (.acrossLines labels)))

/-- Sorting the formulas leaves them in a topological order or comes to a circle. -/
theorem leaves {g : Graph} (hg : g.Linked) : Leaves g (g.sort g.formulas) := by
  obtain ⟨g₀, s, outcome, hsort, hsame, hcolor, hcomes⟩ := sort_comes hg.inRange hg.closedFrom hg.grey
  rw [hsort]
  cases hcomes with
  | circular hend hcloses =>
    obtain ⟨h, rest, labels, rfl, hlabels, hcircle, hin⟩ := hcloses.circle hend
    rw [hsame.edge_eq] at hin
    refine .circular (hsame.trans hend.recolored) ⟨hcircle.nodup, hsame.edge_eq ▸ hcircle.chain⟩
      ?_ ((hsame.trans hend.recolored).labels_eq_ok_iff.mp hlabels)
    intro i hi
    obtain ⟨r, hr, hpath⟩ := hin i hi
    exact hg.reached hpath hr
  | @done s left hend hempty _ hblack =>
    -- the formulas are white at the beginning, so the black ones are those that have been left
    have hwhite : ∀ f ∈ g.formulas, g₀.colorOf f ≠ some .black := by
      intro f hf
      rw [hcolor, if_pos hf]
      simp
    have hformula : ∀ f ∈ left, f ∈ g.formulas := by
      intro f hf
      obtain ⟨r, hr, hpath⟩ := hend.reached f (.inl hf)
      exact hg.reached (hsame.edge_eq ▸ hpath) hr
    have hleft : ∀ f ∈ g.formulas, f ∈ left := fun f hf =>
      ((hend.black f).mp (hblack f hf)).resolve_right (hwhite f hf)
    have hperm : left.Perm g.formulas :=
      (List.perm_ext_iff_of_nodup hend.once hg.once).mpr fun f => ⟨hformula f, hleft f⟩
    refine .done (hsame.trans hend.recolored) hperm hblack (fun f hf => by rw [hend.ranks, if_pos hf]) ?_
    intro i h hi t ht
    refine (hend.ordered i h hi t (hsame.edge_eq ▸ ht)).resolve_right (hwhite t ?_)
    exact hg.inner h (hformula h (List.mem_of_getElem? hi)) t ht

/-- The formulas are returned in the order of leaving. -/
theorem ranked_of_left {g g' : Graph} {left : List Handle} (hg : g.Linked) (hsame : g.Recolored g')
    (hperm : left.Perm g.formulas) (hranks : ∀ f ∈ left, g'.rankOf f = left.idxOf f + 1) : g'.ranked = left :=
  ranked_eq (hperm.nodup_iff.mpr hg.once) (hsame.formulas ▸ hperm) hranks

/-- The order is known by the ranks that sorting gives. -/
theorem order_of_ranks {g : Graph} {ordered : List Handle} (hg : g.Linked) (hperm : ordered.Perm g.formulas)
    (hsort : (g.sort g.formulas).2 = .ok ())
    (hranks : ∀ f ∈ ordered, (g.sort g.formulas).1.rankOf f = ordered.idxOf f + 1) : g.order.2 = .ok ordered := by
  have hleaves := leaves hg
  unfold order
  generalize g.sort g.formulas = result at hleaves hsort hranks
  cases hleaves with
  | done hsame _ _ _ _ => exact congrArg Except.ok (ranked_of_left hg hsame hperm hranks)
  | circular _ _ _ _ => cases hsort

/-- **Ordering comes to a topological order or to a circle.** -/
theorem orders {g : Graph} (hg : g.Linked) : Orders g g.order := by
  have hleaves := leaves hg
  unfold order
  generalize g.sort g.formulas = result at hleaves
  cases hleaves with
  | circular hsame hcircle hin hlabels => exact .circular hsame hcircle hin hlabels
  | done hsame hperm hblack hranks htop =>
    simp only [ranked_of_left hg hsame hperm hranks]
    exact .sorted hsame hperm hblack htop

/-- The rank of a formula is its place in the order, counted from one. -/
theorem rankOf_order {g : Graph} (hg : g.Linked) {ordered : List Handle} (h : g.order.2 = .ok ordered) :
    ordered.Perm g.formulas ∧ ∀ f ∈ ordered, g.order.1.rankOf f = ordered.idxOf f + 1 := by
  have hleaves := leaves hg
  unfold order at h ⊢
  generalize g.sort g.formulas = result at hleaves h ⊢
  cases hleaves with
  | circular _ _ _ _ => cases h
  | done hsame hperm _ hranks _ =>
    obtain rfl := Except.ok.inj h
    rw [ranked_of_left hg hsame hperm hranks]
    exact ⟨hperm, hranks⟩

/-! ## Circles -/

theorem Topological.idxOf_lt {g : Graph} {ordered : List Handle} (h : g.Topological ordered)
    (honce : ordered.Nodup) {a b : Handle} (ha : a ∈ ordered) (hab : g.Edge a b) :
    b ∈ ordered ∧ ordered.idxOf b < ordered.idxOf a := by
  have hlt := List.idxOf_lt_length_of_mem ha
  have hb := h (ordered.idxOf a) a (by rw [List.getElem?_eq_getElem hlt, List.getElem_idxOf]) b hab
  refine ⟨List.mem_of_mem_take hb, ?_⟩
  obtain ⟨j, hj, rfl⟩ := List.mem_iff_getElem.mp hb
  rw [List.length_take] at hj
  rw [List.getElem_take, honce.idxOf_getElem j (by omega)]
  omega

/-- In a topological order nothing depends on itself. -/
theorem Topological.acyclic {g : Graph} {ordered : List Handle} (h : g.Topological ordered)
    (honce : ordered.Nodup) {a : Handle} (ha : a ∈ ordered) : ¬ Relation.TransGen g.Edge a a := by
  intro hcircle
  -- along edges places only fall
  have hlt : ∀ {b : Handle}, Relation.TransGen g.Edge a b →
      b ∈ ordered ∧ ordered.idxOf b < ordered.idxOf a := by
    intro b hb
    induction hb with
    | single hab => exact h.idxOf_lt honce ha hab
    | tail _ hbc ih =>
      obtain ⟨hc, hclt⟩ := h.idxOf_lt honce ih.1 hbc
      exact ⟨hc, Nat.lt_trans hclt ih.2⟩
  exact Nat.lt_irrefl _ (hlt hcircle).2

theorem transGen_of_isChain {α : Type} {R : α → α → Prop} {l : List α} {a b : α}
    (h : (a :: (l ++ [b])).IsChain R) : Relation.TransGen R a b := by
  induction l generalizing a with
  | nil =>
    rw [List.nil_append, List.isChain_cons_cons] at h
    exact .single h.1
  | cons c l ih =>
    rw [List.cons_append, List.isChain_cons_cons] at h
    exact .head h.1 (ih h.2)

/-- **Ordering fails exactly if some formula depends on itself.** -/
theorem order_error_iff {g : Graph} (hg : g.Linked) :
    (∃ e, g.order.2 = .error e) ↔ ∃ f ∈ g.formulas, Relation.TransGen g.Edge f f := by
  have h := orders hg
  generalize g.order = result at h
  cases h with
  | sorted _ hperm _ htop =>
    refine iff_of_false (fun ⟨_, he⟩ => by cases he) ?_
    rintro ⟨f, hf, hcircle⟩
    exact htop.acyclic (hperm.nodup_iff.mpr hg.once) (hperm.mem_iff.mpr hf) hcircle
  | @circular _ h rest _ _ hcircle hin _ =>
    exact iff_of_true ⟨_, rfl⟩ ⟨h, hin h List.mem_cons_self, transGen_of_isChain hcircle.chain⟩

/-- What it fails with is a circle. -/
theorem cyclic_of_order_error {g : Graph} (hg : g.Linked) {e : Failure} (h : g.order.2 = .error e) :
    ∃ labels, e = .cyclic (.acrossLines labels) := by
  have horders := orders hg
  generalize g.order = result at h horders
  cases horders with
  | sorted _ _ _ _ => cases h
  | circular _ _ _ _ => exact ⟨_, (Except.error.inj h).symm⟩

/-! ## The check -/

/-- Listing each member once is listing as many vertices, and the same. -/
theorem same_members_iff (ordered : List Handle) {members : List Handle} (h : members.Nodup) :
    ordered.length = members.length ∧ (ordered ⊆ members ∧ members ⊆ ordered) ↔
      ordered.Nodup ∧ ∀ i, i ∈ ordered ↔ i ∈ members := by
  constructor
  · rintro ⟨hlen, hsub, hsup⟩
    have hperm : members.Perm ordered :=
      (List.subperm_of_subset h hsup).perm_of_length_le (Nat.le_of_eq hlen)
    exact ⟨hperm.nodup_iff.mp h, fun i => hperm.mem_iff.symm⟩
  · rintro ⟨honce, hmem⟩
    have hperm : ordered.Perm members := (List.perm_ext_iff_of_nodup honce h).mpr hmem
    exact ⟨hperm.length_eq, hperm.subset, hperm.symm.subset⟩

theorem all_black_iff {g : Graph} {hs : List Handle} {vs : List Vertex}
    (h : List.Forall₂ (fun i v => g.get i = .ok v) hs vs) :
    (∀ v ∈ vs, v.color = .black) ↔ ∀ i ∈ hs, g.colorOf i = some .black := by
  induction h with
  | nil => simp
  | cons hv _ ih =>
    rw [List.forall_mem_cons, List.forall_mem_cons, ih, colorOf_eq (get_eq_ok_iff.mp hv), Option.some.injEq]

/-- All vertices that edges lead from or to are listed with the members. -/
theorem ends_mem_of_members {g : Graph} {ordered : List Handle} (h : g.dependencies.members ⊆ ordered) :
    ∀ e ∈ g.dependencies.edges, e.1 ∈ ordered ∧ e.2 ∈ ordered := by
  rintro ⟨f, t⟩ he
  obtain ⟨hf, ht⟩ := mem_edges.mp he
  exact ⟨h (mem_members.mpr (.inl hf)), h (mem_members.mpr (.inr ⟨f, hf, ht⟩))⟩

/-- No dependency is upwards exactly if no formula stands before one that it depends on. -/
theorem checkEdges_dependencies_iff {g : Graph} {ordered : List Handle} (h : ordered.Nodup)
    (hmembers : g.dependencies.members ⊆ ordered) :
    g.checkEdges (places ordered) g.dependencies.edges = .ok () ↔
      ∀ f ∈ g.formulas, ∀ t, g.Edge f t → ordered.idxOf t ≤ ordered.idxOf f := by
  rw [checkEdges_eq_ok_iff h (ends_mem_of_members hmembers)]
  constructor
  · intro h f hf t ht
    exact h (f, t) (mem_edges.mpr ⟨hf, ht⟩)
  · rintro h ⟨f, t⟩ he
    obtain ⟨hf, ht⟩ := mem_edges.mp he
    exact h f hf t ht

/-- **What the check accepts**: each formula and whatever formulas depend on once, all black, and every
formula after what it depends on. -/
theorem checkOrder_eq_ok_iff {g : Graph} {ordered : List Handle} :
    g.checkOrder ordered = .ok () ↔
      (ordered.Nodup ∧ ∀ h, h ∈ ordered ↔ h ∈ g.formulas ∨ ∃ f ∈ g.formulas, g.Edge f h) ∧
      (∀ h ∈ ordered, g.colorOf h = some .black) ∧
      ∀ f ∈ g.formulas, ∀ t, g.Edge f t → t ≠ f → ordered.idxOf t < ordered.idxOf f := by
  have hsame := same_members_iff ordered (nodup_members g)
  simp only [mem_members] at hsame
  unfold checkOrder
  simp only
  split
  · rename_i hdiff
    refine iff_of_false (fun h => by cases h) ?_
    rintro ⟨hmem, _⟩
    obtain ⟨hlen, hsub⟩ := hsame.mpr hmem
    exact hdiff.elim (fun h => h hlen) fun h => h hsub
  · rename_i hsize
    rw [not_or, not_not, not_not] at hsize
    have hlisted := hsame.mp hsize
    cases hget : ordered.mapM g.get with
    | error e =>
      refine iff_of_false (fun h => by cases h) ?_
      rintro ⟨_, hblack, _⟩
      obtain ⟨vs, hvs⟩ := exists_forall₂ fun h hh => get_isOk_iff.mpr (lt_size_of_colorOf (hblack h hh))
      rw [(mapM_eq_ok_iff g.get).mpr hvs] at hget
      cases hget
    | ok vs =>
      have hblack := all_black_iff ((mapM_eq_ok_iff g.get).mp hget)
      simp only [bind, Except.bind]
      split
      · rename_i hunfinished
        refine iff_of_false (fun h => by cases h) ?_
        rintro ⟨_, hall, _⟩
        exact hunfinished (List.filter_eq_nil_iff.mpr fun v hv => by simpa using hblack.mpr hall v hv)
      · rename_i hfinished
        have hall : ∀ v ∈ vs, v.color = .black := by
          intro v hv
          simpa using List.filter_eq_nil_iff.mp (not_not.mp hfinished) v hv
        rw [checkEdges_dependencies_iff hlisted.1 hsize.2.2]
        constructor
        · intro h
          refine ⟨hlisted, hblack.mp hall, ?_⟩
          intro f hf t ht hne
          refine Nat.lt_of_le_of_ne (h f hf t ht) fun he => hne ?_
          exact (List.idxOf_inj ((hlisted.2 t).mpr (.inr ⟨f, hf, ht⟩))).mp he
        · rintro ⟨-, -, h⟩ f hf t ht
          by_cases he : t = f
          · rw [he]
          · exact Nat.le_of_lt (h f hf t ht he)

/-- The check accepts what ordering returns. -/
theorem checkOrder_of_orders {g g' : Graph} (hg : g.Linked) {ordered : List Handle}
    (h : g.order = (g', .ok ordered)) : g'.checkOrder ordered = .ok () := by
  have horders := orders hg
  rw [h] at horders
  cases horders with
  | sorted hsame hperm hblack htop =>
    have honce : ordered.Nodup := hperm.nodup_iff.mpr hg.once
    rw [checkOrder_eq_ok_iff, hsame.edge_eq, hsame.formulas]
    refine ⟨⟨honce, ?_⟩, fun i hi => hblack i (hperm.mem_iff.mp hi), ?_⟩
    · intro i
      rw [hperm.mem_iff]
      exact ⟨.inl, fun hi => hi.elim id fun ⟨f, hf, hfi⟩ => hg.inner f hf i hfi⟩
    · intro f hf t ht _
      exact (htop.idxOf_lt honce (hperm.mem_iff.mpr hf) ht).2

end Graph

end EvalOrder
