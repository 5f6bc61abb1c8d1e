import EvalOrder.Proofs.ExtraEdges
import EvalOrder.Proofs.Lifetime
import EvalOrder.Proofs.TextGraph

/-!
# Linking again and again

A session links all of its formulas each time a text is read. A formula that was linked before gets its links once
more, and they are the same: it is linked only when all that it calls is declared, and later lines declare other
names. So the links that texts bring are those of the lines by themselves, as often as there was something to link.

Results:
* `Continues.targets`: what a formula depends on is settled once its calls are declared.
* `filter_linkEdges`: the links of one formula.
* `Holds.complete`, `read_cases`: formulas are linked when all that they call is declared.
* `after_addEdges`: texts one after another, and what they come to with the links left out (`drafts`).
* **`filter_drafts`**: the links that texts bring to one formula.
-/

namespace EvalOrder

namespace Graph

/-! ## Growing by lines -/

/-- The second graph is the first with more lines: names keep their handles, formulas their vertices and places. -/
structure Continues (g g' : Graph) : Prop extends Grows g g' where
  formulas : g.formulas <+: g'.formulas

/-- Every name that a formula calls is declared by one. -/
def Complete (g : Graph) : Prop := ∀ f ∈ g.formulas, ∀ d ∈ g.calledBy f, ∃ b ∈ g.formulas, d ∈ g.declaredBy b

namespace Continues

variable {g g' g'' : Graph}

theorem refl (g : Graph) : g.Continues g := ⟨⟨id, fun _ _ => rfl⟩, List.prefix_rfl⟩

theorem trans (h : g.Continues g') (h' : g'.Continues g'') : g.Continues g'' :=
  ⟨h.toGrows.trans h'.toGrows h.formulas.subset, h.formulas.trans h'.formulas⟩

theorem calledBy (h : g.Continues g') {f : Handle} (hf : f ∈ g.formulas) : g'.calledBy f = g.calledBy f := by
  rw [Graph.calledBy, h.vertices f hf, Graph.calledBy]

theorem declaredBy (h : g.Continues g') {f : Handle} (hf : f ∈ g.formulas) : g'.declaredBy f = g.declaredBy f := by
  rw [Graph.declaredBy, h.vertices f hf, Graph.declaredBy]

/-- A declared name keeps its owner. -/
theorem get?_owners (h : g.Continues g') (hg : g.WellFormed) (hg' : g'.WellFormed) {b d : Handle}
    (hb : b ∈ g.formulas) (hd : d ∈ g.declaredBy b) : g'.owners.get? d = g.owners.get? d := by
  rw [(Graph.get?_owners hg.ownedOnce).mpr ⟨hb, hd⟩]
  exact (Graph.get?_owners hg'.ownedOnce).mpr ⟨h.formulas.subset hb, h.declaredBy hb ▸ hd⟩

/-- **What a formula depends on is settled** once all that is called is declared. -/
theorem targets (h : g.Continues g') (hg : g.WellFormed) (hg' : g'.WellFormed) (hc : g.Complete) {f : Handle}
    (hf : f ∈ g.formulas) : g'.targets g'.owners f = g.targets g.owners f := by
  have howners : g'.calledOwners g'.owners f = g.calledOwners g.owners f := by
    rw [calledOwners, calledOwners, h.calledBy hf]
    refine congrArg (fun owners => (distinct owners).filter (· ≠ f)) (List.filterMap_congr fun d hd => ?_)
    obtain ⟨b, hb, hdb⟩ := hc f hf d hd
    exact h.get?_owners hg hg' hb hdb
  obtain ⟨more, hmore⟩ := h.formulas
  have hnodup : (g.formulas ++ more).Nodup := hmore ▸ hg'.ascending.imp Nat.ne_of_lt
  rw [targets_eq_filter (hmore ▸ hnodup), targets_eq_filter (List.nodup_append.mp hnodup).1, howners, ← hmore,
    List.filter_append, List.append_right_eq_self, List.filter_eq_nil_iff]
  -- the owners are formulas of the first graph
  intro b hb htarget
  obtain ⟨-, d, -, hd⟩ := mem_calledOwners.mp (by simpa using htarget)
  exact (List.disjoint_of_nodup_append hnodup) (mem_formulas_of_owner hd) hb

end Continues

/-! ## The links of one formula -/

theorem filter_flatMap_pairs {fs : List Handle} (h : fs.Nodup) (t : Handle → List Handle) (f : Handle) :
    ((fs.flatMap fun a => (t a).map fun b => (a, b)).filter (·.1 = f)).map Prod.snd =
      if f ∈ fs then t f else [] := by
  induction fs with
  | nil => rfl
  | cons a fs ih =>
    obtain ⟨ha, hfs⟩ := List.nodup_cons.mp h
    rw [List.flatMap_cons, List.filter_append, List.map_append, ih hfs]
    by_cases haf : a = f
    · subst haf
      simp [List.filter_map, Function.comp_def, ha]
    · simp [List.filter_map, Function.comp_def, haf, Ne.symm haf]

theorem filter_linkEdges {g : Graph} (h : g.formulas.Nodup) (f : Handle) :
    (g.linkEdges.filter (·.1 = f)).map Prod.snd = if f ∈ g.formulas then g.targets g.owners f else [] :=
  filter_flatMap_pairs h (g.targets g.owners) f

end Graph

namespace Session

open EvalOrder.Graph

variable {s : Session} {text : String} {texts : List String}

/-! ## Accepted lines -/

theorem wellFormed_enterText (hs : s.WellFormed) (text : String) : (s.enterText text).1.WellFormed :=
  enterAll_induction (fun _ c h => h.enter c) hs _

theorem wellFormed_afterTexts (hs : s.WellFormed) (texts : List String) : (s.afterTexts texts).WellFormed := by
  induction texts generalizing s with
  | nil => exact hs
  | cons text texts ih => exact ih (wellFormed_enterText hs text)

theorem Adds.continues {s s' : Session} {line : String} (h : Adds s s' line) : s.graph.Continues s'.graph := by
  obtain ⟨f, v, hformulas, -⟩ := h.formula
  exact ⟨h.grows, hformulas ▸ List.prefix_append _ _⟩

theorem continues_enterAll {cs : List Cursor} {ls : List String} (h : List.Forall₂ IsLineCursor cs ls)
    (hs : s.WellFormed) (hok : (s.enterAll cs).2.2 = .ok ()) : s.graph.Continues (s.enterAll cs).1.graph := by
  induction h generalizing s with
  | nil => exact .refl _
  | @cons c line cs ls hc _ ih =>
    rw [enterAll] at hok ⊢
    cases hout : (s.enter c).outcome with
    | error e =>
      rw [hout] at hok
      cases hok
    | ok u =>
      simp only [hout] at hok ⊢
      exact (adds_enter hs hc hout).continues.trans (ih (hs.enter c) hok)

theorem continues_enterText (hs : s.WellFormed) (hok : (s.enterText text).2.2 = .ok ()) :
    s.graph.Continues (s.enterText text).1.graph :=
  continues_enterAll (isLineCursor_lineCursors text) hs hok

theorem continues_afterTexts (hs : s.WellFormed) (h : s.EntersAll texts) :
    s.graph.Continues (s.afterTexts texts).graph := by
  induction texts generalizing s with
  | nil => exact .refl _
  | cons text texts ih => exact (continues_enterText hs h.1).trans (ih (wellFormed_enterText hs text) h.2)

theorem holds_enterText {ls : List String} (hs : s.Holds ls) (hok : (s.enterText text).2.2 = .ok ()) :
    (s.enterText text).1.Holds (ls ++ textLines text) :=
  holds_enterAll (isLineCursor_lineCursors text) hs hok

theorem holds_afterTexts {ls : List String} (hs : s.Holds ls) (h : s.EntersAll texts) :
    (s.afterTexts texts).Holds (ls ++ texts.flatMap textLines) := by
  induction texts generalizing s ls with
  | nil => rwa [List.flatMap_nil, List.append_nil]
  | cons text texts ih =>
    rw [List.flatMap_cons, ← List.append_assoc]
    exact ih (holds_enterText hs h.1) h.2

/-- If no called name is undeclared, each is declared by a formula. -/
theorem Holds.complete {ls : List String} (hs : s.Holds ls) (hnil : s.undefined = []) : s.graph.Complete := by
  intro f hf d hd
  obtain ⟨line, hline, v, hv, -⟩ := exists_of_mem_right hs.formulas.flip hf
  obtain ⟨x, hx, hxd⟩ := hv.mem_calledBy.mp hd
  have hcalled : x ∈ s.called := by
    rw [hs.called, mem_distinct, List.mem_flatMap]
    exact ⟨line, hline, hx⟩
  have hdefined : x ∈ s.defined := by simpa using List.filter_eq_nil_iff.mp hnil x hcalled
  rw [hs.defined, List.mem_flatMap] at hdefined
  obtain ⟨other, hother, hx'⟩ := hdefined
  obtain ⟨b, hb, w, hw, -⟩ := exists_of_mem_right hs.formulas hother
  exact ⟨b, hb, hw.mem_declaredBy.mpr ⟨x, hx', hxd⟩⟩

/-! ## Texts one after another -/

/-- What the texts come to that are read one after another. -/
def intakes (s : Session) : List String → List Intake
  | [] => []
  | text :: texts => s.read text :: (s.read text).session.intakes texts

/-- What they come to if the links of those before are left out. -/
def drafts (s : Session) : List String → List Intake
  | [] => []
  | text :: texts => s.read text :: (s.enterText text).1.drafts texts

theorem drafts_append (s : Session) (texts more : List String) :
    s.drafts (texts ++ more) = s.drafts texts ++ (s.afterTexts texts).drafts more := by
  induction texts generalizing s with
  | nil => rfl
  | cons text texts ih => rw [List.cons_append, drafts, ih, drafts, List.cons_append]; rfl

theorem formulas_subset_enterText (hs : s.WellFormed) (text : String) :
    s.graph.formulas ⊆ (s.enterText text).1.graph.formulas :=
  (enterAll_induction (P := fun s' => s'.WellFormed ∧ s.graph.formulas ⊆ s'.graph.formulas)
    (fun _ c h => ⟨h.1.enter c, List.Subset.trans h.2 (formulas_subset_enter h.1 c)⟩) ⟨hs, List.Subset.refl _⟩ _).2

theorem formulas_subset_afterTexts (hs : s.WellFormed) (texts : List String) :
    s.graph.formulas ⊆ (s.afterTexts texts).graph.formulas := by
  induction texts generalizing s with
  | nil => exact List.Subset.refl _
  | cons text texts ih =>
    exact List.Subset.trans (formulas_subset_enterText hs text) (ih (wellFormed_enterText hs text))

/-- A text is read if its lines are entered and every called name is declared; then all formulas are linked. -/
theorem read_cases (s : Session) (text : String) :
    ((s.read text).outcome = .ok () ∧ (s.enterText text).2.2 = .ok () ∧ (s.enterText text).1.undefined = [] ∧
      (s.read text).edges = (s.enterText text).1.graph.linkEdges) ∨
    (∃ e, (s.read text).outcome = .error e) ∧ (s.read text).edges = [] := by
  cases hout : (s.enterText text).2.2 with
  | error e => exact .inr (by simp [read_of_error hout])
  | ok u =>
    by_cases hnil : (s.enterText text).1.undefined = []
    · exact .inl (by simp [read_of_linked hout hnil, hnil])
    · exact .inr (by simp [read_of_undefined hout hnil])

theorem mem_edges_read {e : Handle × Handle} (he : e ∈ (s.read text).edges) :
    e.1 ∈ (s.enterText text).1.graph.formulas := by
  rcases s.read_cases text with ⟨-, -, -, hedges⟩ | ⟨-, hedges⟩
  · rw [hedges] at he
    exact (mem_linkEdges.mp he).1
  · rw [hedges] at he
    exact absurd he List.not_mem_nil

theorem mem_edges_drafts (hs : s.WellFormed) {texts : List String} {e : Handle × Handle}
    (he : e ∈ (s.drafts texts).flatMap Intake.edges) : e.1 ∈ (s.afterTexts texts).graph.formulas := by
  induction texts generalizing s with
  | nil => exact absurd he List.not_mem_nil
  | cons text texts ih =>
    rw [drafts, List.flatMap_cons] at he
    rcases List.mem_append.mp he with he | he
    · exact formulas_subset_afterTexts (wellFormed_enterText hs text) texts (mem_edges_read he)
    · exact ih (wellFormed_enterText hs text) he

/-- **Texts one after another** bring their lines, and their links beside them. -/
theorem after_addEdges (hs : s.WellFormed) {edges : List (Handle × Handle)} (h : ∀ e ∈ edges, e.1 ∈ s.graph.formulas)
    (texts : List String) :
    (s.addEdges edges).after texts =
        (s.afterTexts texts).addEdges (edges ++ (s.drafts texts).flatMap Intake.edges) ∧
      ((s.addEdges edges).intakes texts).map Intake.outcome = (s.drafts texts).map Intake.outcome := by
  induction texts generalizing s edges with
  | nil => exact ⟨by simp [after, drafts, afterTexts], rfl⟩
  | cons text texts ih =>
    have hread := read_addEdges hs h text
    have hedges : ∀ e ∈ edges ++ (s.read text).edges, e.1 ∈ (s.enterText text).1.graph.formulas := by
      intro e he
      rcases List.mem_append.mp he with he | he
      · exact formulas_subset_enterText hs text (h e he)
      · exact mem_edges_read he
    obtain ⟨hafter, hout⟩ := ih (wellFormed_enterText hs text) hedges
    have hcons : (s.addEdges edges).after (text :: texts) = ((s.addEdges edges).read text).session.after texts := rfl
    constructor
    · rw [hcons, hread, drafts, List.flatMap_cons, ← List.append_assoc]
      exact hafter
    · rw [intakes, drafts, List.map_cons, List.map_cons, hread, ← hout]

/-! ## The links that texts bring -/

/-- A text that is read links a formula to all that it will ever be linked to. -/
theorem filter_edges_read {ls : List String} (hs : s.Holds ls) {g : Graph} (hg : g.WellFormed)
    (hcont : (s.enterText text).1.graph.Continues g) {f : Handle} (hf : f ∈ (s.enterText text).1.graph.formulas) :
    ((s.read text).edges.filter (·.1 = f)).map Prod.snd =
      if (s.read text).outcome.isOk then g.targets g.owners f else [] := by
  rcases s.read_cases text with ⟨hout, hok, hnil, hedges⟩ | ⟨⟨e, hout⟩, hedges⟩
  · have hholds := holds_enterText hs hok
    have hwf := hholds.wellFormed.graph
    rw [hedges, filter_linkEdges (hwf.ascending.imp Nat.ne_of_lt), if_pos hf, hout,
      hcont.targets hwf hg (hholds.complete hnil) hf]
    rfl
  · rw [hedges, hout]
    rfl

/-- **The links that texts bring to one formula**, which is there after the first of them: as often as a text is
read, all that it depends on. -/
theorem filter_drafts {ls : List String} (hs : s.Holds ls) (h : s.EntersAll texts) {f : Handle}
    (hf : ∀ text ∈ texts.head?, f ∈ (s.enterText text).1.graph.formulas) :
    (((s.drafts texts).flatMap Intake.edges).filter (·.1 = f)).map Prod.snd =
      (List.replicate ((s.drafts texts).countP (·.outcome.isOk))
        ((s.afterTexts texts).graph.targets (s.afterTexts texts).graph.owners f)).flatten := by
  induction texts generalizing s ls with
  | nil => rfl
  | cons text texts ih =>
    obtain ⟨hok, hrest⟩ := h
    have hnext := holds_enterText hs hok
    have hmem : f ∈ (s.enterText text).1.graph.formulas := hf text rfl
    have hmore := ih hnext hrest fun next _ => formulas_subset_enterText hnext.wellFormed next hmem
    have hlast : s.afterTexts (text :: texts) = (s.enterText text).1.afterTexts texts := rfl
    have hwf := (wellFormed_afterTexts hnext.wellFormed texts).graph
    rw [drafts, List.flatMap_cons, List.filter_append, List.map_append, hlast,
      filter_edges_read hs hwf (continues_afterTexts hnext.wellFormed hrest) hmem, hmore, List.countP_cons]
    by_cases hread : (s.read text).outcome.isOk
    · simp [hread, List.replicate_succ]
    · simp [hread]

end Session

end EvalOrder
