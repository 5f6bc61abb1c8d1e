import EvalOrder.Proofs.Order
import EvalOrder.Proofs.WellFormed

/-!
# Linking

The table of owners says of each name which formula declares it, if no two formulas declare one name. So a
formula is linked to just those others that declare a name it calls, and linking keeps a graph well-formed.

Results:
* `get?_owners`: the owner of a name.
* **`targets_eq_filter`**: the formulas that a formula depends on, without sorting.
* **`edge_link_iff`**: the edges of a linked graph.
* `WellFormed.link`, `WellFormed.linked`: it stays well-formed, and its formulas may be ordered.
-/

namespace EvalOrder

namespace Graph

/-- After the formulas of a list have been put into the table, the owner of a name is the one among them that
declares it, if there is one. -/
theorem get?_foldl_owners {g : Graph} {d f : Handle} : ∀ {fs : List Handle} {t : Table Handle Handle},
    (∀ a ∈ fs, ∀ b ∈ fs, d ∈ g.declaredBy a → d ∈ g.declaredBy b → a = b) →
    ((fs.foldl (fun t f => (g.declaredBy f).foldl (fun t name => t.put name f) t) t).get? d = some f ↔
      (f ∈ fs ∧ d ∈ g.declaredBy f) ∨ (∀ a ∈ fs, d ∉ g.declaredBy a) ∧ t.get? d = some f)
  | [], t, _ => by simp
  | a :: fs, t, honce => by
    have hrest : ∀ b ∈ fs, ∀ c ∈ fs, d ∈ g.declaredBy b → d ∈ g.declaredBy c → b = c := fun b hb c hc =>
      honce b (List.mem_cons_of_mem _ hb) c (List.mem_cons_of_mem _ hc)
    rw [List.foldl_cons, get?_foldl_owners hrest, get?_foldl_put, List.forall_mem_cons, List.mem_cons]
    by_cases ha : d ∈ g.declaredBy a
    · have hfirst : ∀ b ∈ fs, d ∈ g.declaredBy b → a = b := fun b hb hdb =>
        honce a List.mem_cons_self b (List.mem_cons_of_mem _ hb) ha hdb
      simp only [ha, if_true, Option.some.injEq, not_true, false_and, or_false]
      constructor
      · rintro (⟨hf, hd⟩ | ⟨-, rfl⟩)
        · exact ⟨.inr hf, hd⟩
        · exact ⟨.inl rfl, ha⟩
      · rintro ⟨rfl | hf, hd⟩
        · by_cases hmem : ∃ b ∈ fs, d ∈ g.declaredBy b
          · obtain ⟨b, hb, hdb⟩ := hmem
            exact .inl ⟨hfirst b hb hdb ▸ hb, ha⟩
          · exact .inr ⟨fun b hb hdb => hmem ⟨b, hb, hdb⟩, rfl⟩
        · exact .inl ⟨hf, hd⟩
    · simp only [ha, if_false, not_false_iff, true_and]
      refine or_congr_left ?_
      constructor
      · rintro ⟨hf, hd⟩
        exact ⟨.inr hf, hd⟩
      · rintro ⟨rfl | hf, hd⟩
        · exact absurd hd ha
        · exact ⟨hf, hd⟩

/-- The owner of a name is the formula that declares it. -/
theorem get?_owners {g : Graph}
    (hown : ∀ a ∈ g.formulas, ∀ b ∈ g.formulas, ∀ d ∈ g.declaredBy a, d ∈ g.declaredBy b → a = b)
    {d f : Handle} : g.owners.get? d = some f ↔ f ∈ g.formulas ∧ d ∈ g.declaredBy f := by
  rw [owners, get?_foldl_owners fun a ha b hb => hown a ha b hb d]
  simp [Table.get?]

/-- **The formulas that a formula depends on** are found by asking of each one, in the order of declaration, whether it
owns a called name. -/
theorem targets_eq_filter {g : Graph} (honce : g.formulas.Nodup) (a : Handle) :
    g.targets g.owners a = g.formulas.filter (· ∈ g.calledOwners g.owners a) := by
  have hnodup : (g.calledOwners g.owners a).Nodup := (nodup_distinct _).filter _
  have hperm : (g.targets g.owners a).Perm (g.formulas.filter (· ∈ g.calledOwners g.owners a)) := by
    refine (List.mergeSort_perm _ _).trans ((List.perm_ext_iff_of_nodup hnodup (honce.filter _)).mpr fun b => ?_)
    rw [List.mem_filter, decide_eq_true_eq]
    refine ⟨fun hb => ⟨?_, hb⟩, fun hb => hb.2⟩
    obtain ⟨-, name, -, hname⟩ := mem_calledOwners.mp hb
    exact mem_formulas_of_owner hname
  have hsorted : (g.targets g.owners a).Pairwise (g.notAfter · ·) :=
    List.pairwise_mergeSort (fun b c d hbc hcd => by simp [notAfter] at hbc hcd ⊢; omega)
      (fun b c => by simp [notAfter]; omega) _
  have hplaces : g.formulas.Pairwise (g.notAfter · ·) := by
    refine List.pairwise_iff_getElem.mpr fun i j hi hj hij => ?_
    rw [notAfter, decide_eq_true_iff, honce.idxOf_getElem i hi, honce.idxOf_getElem j hj]
    exact Nat.le_of_lt hij
  refine hperm.eq_of_pairwise ?_ hsorted (hplaces.sublist List.filter_sublist)
  intro b c _ hc hbc hcb
  rw [notAfter, decide_eq_true_iff] at hbc hcb
  exact ((List.idxOf_inj (List.mem_of_mem_filter hc)).mp (Nat.le_antisymm hcb hbc)).symm

/-- **The edges of a linked graph** are those it had, and one from each formula to every other that declares
a name it calls. -/
theorem edge_link_iff {g : Graph} (hg : g.WellFormed) {a b : Handle} :
    g.link.Edge a b ↔ g.Edge a b ∨ a ∈ g.formulas ∧ b ∈ g.formulas ∧ b ≠ a ∧
      ∃ d ∈ g.calledBy a, d ∈ g.declaredBy b := by
  have hmem : (a, b) ∈ g.linkEdges ↔ a ∈ g.formulas ∧ b ∈ g.formulas ∧ b ≠ a ∧
      ∃ d ∈ g.calledBy a, d ∈ g.declaredBy b := by
    simp only [mem_linkEdges, get?_owners hg.ownedOnce]
    constructor
    · rintro ⟨ha, hb, hne, d, hd, -, hdb⟩
      exact ⟨ha, hb, hne, d, hd, hdb⟩
    · rintro ⟨ha, hb, hne, d, hd, hdb⟩
      exact ⟨ha, hb, hne, d, hd, hb, hdb⟩
  rw [← hmem]
  by_cases hlt : a < g.size
  · rw [Edge, link, relatedOf_addEdges hlt, List.mem_append, Edge]
    refine or_congr_right ?_
    simp
  · have hnone : g.vertices[a]? = none := Array.getElem?_eq_none (Nat.le_of_not_lt hlt)
    have hnot : (a, b) ∉ g.linkEdges := fun hab => hlt (hg.inRange a (hmem.mp hab).1)
    simp [Edge, relatedOf, link, vertices_addEdges, hnone, hnot]

theorem WellFormed.link {g : Graph} (hg : g.WellFormed) : g.link.WellFormed := by
  refine hg.addEdges fun e he => .inr ?_
  obtain ⟨ha, hb, hne, -⟩ := mem_linkEdges.mp he
  exact ⟨ha, hb, hne⟩

/-- A well-formed graph that has not been searched may be ordered. -/
theorem WellFormed.linked {g : Graph} (hg : g.WellFormed) (hu : g.Unsearched) : g.Linked where
  once := hg.ascending.imp Nat.ne_of_lt
  inRange := hg.inRange
  inner f hf t ht := by
    obtain ⟨v, hv⟩ := exists_vertex (hg.inRange f hf)
    rw [Edge, relatedOf_eq hv] at ht
    exact ((hg.ofFormula hf hv).2.2 t ht).1
  grey h hc := by
    obtain ⟨v, hv, hgrey⟩ := Option.map_eq_some_iff.mp hc
    rw [hu h v hv] at hgrey
    cases hgrey

end Graph

end EvalOrder
