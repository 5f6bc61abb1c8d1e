import EvalOrder.Proofs.Attempts
import EvalOrder.Proofs.Relinking

/-!
# Names of refused lines

The names on the left of a line are defined as soon as they are read, and stay defined if the line is then refused. If
it has made no formula, they are lost: no formula declares them, and no later line may. Yet a call of a lost name is not
found to be undeclared. So a text that is read has all its calls declared by formulas, but for calls of names that lines
of earlier texts have lost.

Results:
* `Remembers.declared_iff`: a defined name is declared by a formula, or else it is lost.
* **`complete_after_texts`**: the calls of all formulas when a text has been read.
* `calls_lost_name`: a text that is read and calls a lost name.
-/

namespace EvalOrder

open EvalOrder.Graph

namespace Session

variable {s : Session} {as : List Attempt}

/-- The names on the left of lines that made no formula, as far as they were read. -/
def lostNames (as : List Attempt) : List String :=
  (as.filter fun a => !a.formed).flatMap fun a => a.reading.names

/-- The names that are lost when texts have been read or refused. -/
def lost (texts : List String) : List String := lostNames (attempts {} texts)

/-! ## Defined names -/

/-- A formula declares the names of the line that made it, -/
theorem Remembers.exists_declares (h : s.Remembers as) {x : String} {d : Handle} (hd : s.graph.find? x = some d) :
    (∃ b ∈ s.graph.formulas, d ∈ s.graph.declaredBy b) ↔ ∃ a ∈ as, a.formed ∧ x ∈ a.reading.names := by
  constructor
  · rintro ⟨b, hb, hdb⟩
    obtain ⟨a, ha, _, v, -, hv⟩ := exists_of_mem_right h.formulas.flip hb
    obtain ⟨ha, hformed⟩ := List.mem_filter.mp ha
    rw [declaredBy, hv.vertex, Option.map_some, Option.getD_some, mem_iff_exists_name hv.declared] at hdb
    obtain ⟨y, hy, hyd⟩ := hdb
    exact ⟨a, ha, hformed, h.wellFormed.graph.injective hd hyd ▸ hy⟩
  · rintro ⟨a, ha, hformed, hx⟩
    obtain ⟨b, hb, _, v, -, hv⟩ := exists_of_mem_right h.formulas (List.mem_filter.mpr ⟨ha, hformed⟩)
    refine ⟨b, hb, ?_⟩
    rw [declaredBy, hv.vertex, Option.map_some, Option.getD_some, mem_iff_exists_name hv.declared]
    exact ⟨x, hx, hd⟩

/-- so a defined name is declared by a formula, or else it is lost. -/
theorem Remembers.declared_iff (h : s.Remembers as) {x : String} (hx : x ∈ s.defined) {d : Handle}
    (hd : s.graph.find? x = some d) :
    (∃ b ∈ s.graph.formulas, d ∈ s.graph.declaredBy b) ↔ x ∉ lostNames as := by
  rw [h.exists_declares hd]
  have honce := h.once
  rw [h.defined] at hx honce
  constructor
  · -- no two lines have read one name
    rintro ⟨a, ha, hformed, hxa⟩ hlost
    have hperm := (List.filter_append_perm Attempt.formed as).flatMap_right fun a => a.reading.names
    rw [List.flatMap_append] at hperm
    have hdisjoint := List.disjoint_of_nodup_append (hperm.nodup_iff.mpr honce)
    exact hdisjoint (List.mem_flatMap.mpr ⟨a, List.mem_filter.mpr ⟨ha, hformed⟩, hxa⟩) hlost
  · intro hkept
    obtain ⟨a, ha, hxa⟩ := List.mem_flatMap.mp hx
    refine ⟨a, ha, ?_, hxa⟩
    by_contra hformed
    exact hkept (List.mem_flatMap.mpr ⟨a, List.mem_filter.mpr ⟨ha, by simpa using hformed⟩, hxa⟩)

/-- What a formula calls was noted. -/
theorem Remembers.exists_called (h : s.Remembers as) {f d : Handle} (hf : f ∈ s.graph.formulas)
    (hd : d ∈ s.graph.calledBy f) : ∃ x ∈ s.called, s.graph.find? x = some d := by
  obtain ⟨a, ha, _, v, -, hv⟩ := exists_of_mem_right h.formulas.flip hf
  rw [calledBy, hv.vertex, Option.map_some, Option.getD_some, mem_iff_exists_name hv.called] at hd
  obtain ⟨x, hx, hxd⟩ := hd
  refine ⟨x, ?_, hxd⟩
  rw [h.called, mem_distinct, List.mem_flatMap]
  exact ⟨a, (List.mem_filter.mp ha).1, mem_distinct.mp hx⟩

/-! ## Texts that are read -/

variable {texts : List String} {text : String}

/-- A text that is read leaves no call undefined, and loses no name. -/
theorem defined_of_read (h : ((after {} texts).read text).outcome = .ok ()) :
    (∀ x ∈ ((after {} texts).read text).session.called, x ∈ ((after {} texts).read text).session.defined) ∧
      lost (texts ++ [text]) = lost texts := by
  rcases (after {} texts).read_cases text with ⟨-, hlines, hnil, -⟩ | ⟨⟨e, he⟩, -⟩
  · constructor
    · rw [read_of_linked hlines hnil]
      intro x hx
      simpa using List.filter_eq_nil_iff.mp hnil x hx
    · have hwf := (lives_empty.after texts).1
      have haccepted := ((after {} texts).attemptsAt_spec _).2 hlines
      have hattempts := of_mem_attemptsAt (fun _ c h => h.enter c) (isLineCursor_lineCursors text) hwf
      have hformed : ∀ a ∈ (after {} texts).attemptsAt (lineCursors (terminated text.toList)), a.formed :=
        fun a ha => formed_of_accepted (hattempts a ha).1 (haccepted.2 a ha)
      have hnone : ((after {} texts).attemptsAt (lineCursors (terminated text.toList))).filter
          (fun a => !a.formed) = [] :=
        List.filter_eq_nil_iff.mpr fun a ha => by simp [hformed a ha]
      rw [lost, attempts_append, attempts, attempts, List.append_nil, lostNames, List.filter_append, hnone,
        List.append_nil, lost, lostNames]
  · rw [he] at h
    cases h

/-- **The calls of all formulas when a text has been read**, whatever came of the texts before: a call is of a name
that a formula declares, or else of one that a refused line of those texts has lost. So all calls are declared just if
no formula calls a lost name. -/
theorem complete_after_texts (h : ((after {} texts).read text).outcome = .ok ()) :
    (∀ f ∈ ((after {} texts).read text).session.graph.formulas,
      ∀ d ∈ ((after {} texts).read text).session.graph.calledBy f,
        (∃ b ∈ ((after {} texts).read text).session.graph.formulas,
          d ∈ ((after {} texts).read text).session.graph.declaredBy b) ↔
        ¬ ∃ x ∈ lost texts, ((after {} texts).read text).session.graph.find? x = some d) ∧
    (((after {} texts).read text).session.graph.Complete ↔
      ∀ f ∈ ((after {} texts).read text).session.graph.formulas,
        ∀ d ∈ ((after {} texts).read text).session.graph.calledBy f,
          ∀ x ∈ lost texts, ((after {} texts).read text).session.graph.find? x ≠ some d) := by
  have hremembers := remembers_after (texts ++ [text])
  obtain ⟨hdefined, hlost⟩ := defined_of_read h
  rw [show after {} (texts ++ [text]) = ((after {} texts).read text).session by simp [after]] at hremembers
  generalize ((after {} texts).read text).session = s at hremembers hdefined
  have hcall : ∀ f ∈ s.graph.formulas, ∀ d ∈ s.graph.calledBy f,
      (∃ b ∈ s.graph.formulas, d ∈ s.graph.declaredBy b) ↔ ¬ ∃ x ∈ lost texts, s.graph.find? x = some d := by
    intro f hf d hd
    obtain ⟨x, hx, hxd⟩ := hremembers.exists_called hf hd
    rw [hremembers.declared_iff (hdefined x hx) hxd, ← hlost, lost]
    refine not_congr ⟨fun hxl => ⟨x, hxl, hxd⟩, ?_⟩
    rintro ⟨y, hyl, hyd⟩
    exact hremembers.wellFormed.graph.injective hxd hyd ▸ hyl
  refine ⟨hcall, forall₂_congr fun f hf => forall₂_congr fun d hd => ?_⟩
  rw [hcall f hf d hd]
  simp only [not_exists, not_and, ne_eq]

/-- The line `a =` is refused; `c = b` calls the name of the line after it, not the name that is lost. -/
theorem complete_after_unfinished_line :
    ((after {} ["a =", "b = 1"]).read "c = b").outcome = .ok () ∧ lost ["a =", "b = 1"] = ["a"] ∧
      (after {} ["a =", "b = 1"]).graph.find? "b" = some 1 ∧
      ((after {} ["a =", "b = 1"]).read "c = b").session.graph.formulas.map
        ((after {} ["a =", "b = 1"]).read "c = b").session.graph.calledBy = [[], [1]] ∧
      ((after {} ["a =", "b = 1"]).read "c = b").session.graph.Complete := by
  have hread : ((after {} ["a =", "b = 1"]).read "c = b").outcome = .ok () := by decide +kernel
  have hlost : lost ["a =", "b = 1"] = ["a"] := by decide +kernel
  have hcalls : ∀ f ∈ ((after {} ["a =", "b = 1"]).read "c = b").session.graph.formulas,
      ∀ d ∈ ((after {} ["a =", "b = 1"]).read "c = b").session.graph.calledBy f,
        ((after {} ["a =", "b = 1"]).read "c = b").session.graph.find? "a" ≠ some d := by decide +kernel
  refine ⟨hread, hlost, by decide +kernel, by decide +kernel,
    (complete_after_texts hread).2.mpr fun f hf d hd x hx => ?_⟩
  obtain rfl : x = "a" := by simpa [hlost] using hx
  exact hcalls f hf d hd

/-- But `b = a` calls the name that is lost, and is read. -/
theorem calls_lost_name : ((after {} ["a ="]).read "b = a").outcome = .ok () ∧
    ¬ ((after {} ["a ="]).read "b = a").session.graph.Complete := by
  refine ⟨by decide +kernel, ?_⟩
  unfold Graph.Complete
  decide +kernel

end Session

end EvalOrder
