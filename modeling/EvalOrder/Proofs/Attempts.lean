import EvalOrder.Proofs.ExtraEdges
import EvalOrder.Proofs.Lifetime
import EvalOrder.Proofs.Openings

/-!
# What a session remembers

A session comes to the lines of a text one after another, up to the first that is refused, and then goes on with the
next text. What it remembers is settled by these lines (`Attempt`) as they were read: the names that stand on their
left are defined, the names that their expressions mention are called, and each line that makes a formula has one, in
order (`Remembers`). A refused line is remembered like any other, as far as it was read.

Results:
* `Remembers.enter`, `Remembers.enterAll`, `Remembers.after`: a line, the lines of a text, any number of texts.
* `attempts_induction`, `of_mem_attempts`: what is known of each attempt.
* **`formulas_after_texts`**: the formulas of a session after any texts are those of the lines that opened with a
  declaration, also of lines that were then refused.
* `formulas_after_bracket`: a line that was refused, and its formula.
-/

namespace EvalOrder

/-- A line that a session came to, and the session as it was then. -/
structure Attempt where
  session : Session
  cursor : Cursor

namespace Attempt

variable (a : Attempt)

/-- The line, without its line feed. -/
def line : String := String.ofList a.cursor.window.dropLast

/-- What came of it. -/
def entry : Entry := a.session.enter a.cursor

/-- What was read of it. -/
def reading : Reading := a.session.reading a.cursor

/-- It made a formula. -/
def formed : Bool := a.entry.declaration.isSome

/-- It was accepted. -/
def accepted : Bool := a.entry.outcome.isOk

/-- The formula is the one that it made. -/
def Made (g : Graph) (f : Handle) : Prop :=
  ∃ d v, a.entry.declaration = some d ∧ g.Records f d.label a.reading v

end Attempt

theorem IsLineCursor.eq_line {c : Cursor} {line : String} (h : IsLineCursor c line) (s : Session) :
    Attempt.line ⟨s, c⟩ = line := by
  rw [Attempt.line, h.window, List.dropLast_concat, String.ofList_toList]

namespace Graph

theorem Records.addEdges {g : Graph} {f : Handle} {label : String} {r : Reading} {v : Vertex}
    (h : g.Records f label r v) (edges : List (Handle × Handle)) : ∃ v', (g.addEdges edges).Records f label r v' := by
  refine ⟨{ v with related := v.related ++ (edges.filter (·.1 = f)).map Prod.snd }, ?_, h.name, ?_, ?_⟩
  · rw [vertices_addEdges, h.vertex, Option.map_some]
  · exact (List.map_congr_left fun x _ => find?_addEdges g edges x).trans h.declared
  · exact (List.map_congr_left fun x _ => find?_addEdges g edges x).trans h.called

end Graph

namespace Session

variable {s : Session} {as : List Attempt}

/-! ## The lines that a session comes to -/

/-- The lines that are come to among `cs`: all up to the first that is refused. -/
def attemptsAt (s : Session) : List Cursor → List Attempt
  | [] => []
  | c :: more => ⟨s, c⟩ :: match (s.enter c).outcome with
    | .error _ => []
    | .ok () => (s.enter c).session.attemptsAt more

/-- The lines that are come to in texts. -/
def attempts (s : Session) : List String → List Attempt
  | [] => []
  | text :: texts => s.attemptsAt (lineCursors (terminated text.toList)) ++ (s.read text).session.attempts texts

theorem attempts_append (s : Session) (texts more : List String) :
    s.attempts (texts ++ more) = s.attempts texts ++ (s.after texts).attempts more := by
  induction texts generalizing s with
  | nil => rfl
  | cons text texts ih =>
    rw [List.cons_append, attempts, ih, attempts, List.append_assoc]
    rfl

/-- Lines are come to in order; if none is refused, to all of them, and all are accepted. -/
theorem attemptsAt_spec (s : Session) (cs : List Cursor) :
    (s.attemptsAt cs).map Attempt.cursor <+: cs ∧ ((s.enterAll cs).2.2 = .ok () →
      (s.attemptsAt cs).map Attempt.cursor = cs ∧ ∀ a ∈ s.attemptsAt cs, a.accepted) := by
  induction cs generalizing s with
  | nil => simp [attemptsAt]
  | cons c cs ih =>
    obtain ⟨hfirst, hall⟩ := ih (s.enter c).session
    rw [attemptsAt, enterAll]
    cases hout : (s.enter c).outcome with
    | error e => simp
    | ok u =>
      simp only [List.map_cons, List.forall_mem_cons]
      refine ⟨List.cons_prefix_cons.mpr ⟨rfl, hfirst⟩, fun hok => ?_⟩
      obtain ⟨hcursors, haccepted⟩ := hall hok
      refine ⟨by rw [hcursors], ?_, haccepted⟩
      rw [Attempt.accepted, Attempt.entry, hout]
      rfl

/-- What each line keeps holds of the session at each attempt, and the attempt was at a line. -/
theorem of_mem_attemptsAt {P : Session → Prop} (step : ∀ s c, P s → P (s.enter c).session) {cs : List Cursor}
    {ls : List String} (h : List.Forall₂ IsLineCursor cs ls) (hs : P s) :
    ∀ a ∈ s.attemptsAt cs, P a.session ∧ IsLineCursor a.cursor a.line := by
  induction h generalizing s with
  | nil => exact fun a ha => absurd ha List.not_mem_nil
  | @cons c line cs ls hc _ ih =>
    rw [attemptsAt]
    refine List.forall_mem_cons.mpr ⟨⟨hs, (hc.eq_line s).symm ▸ hc⟩, ?_⟩
    split
    · exact fun a ha => absurd ha List.not_mem_nil
    · exact ih (step s c hs)

theorem attempts_induction {P : Session → Prop} (step : ∀ s c, P s → P (s.enter c).session)
    (link : ∀ s : Session, P s → P { s with graph := s.graph.link }) (hs : P s) (texts : List String) :
    ∀ a ∈ s.attempts texts, P a.session ∧ IsLineCursor a.cursor a.line := by
  induction texts generalizing s with
  | nil => exact fun a ha => absurd ha List.not_mem_nil
  | cons text texts ih =>
    exact List.forall_mem_append.mpr
      ⟨of_mem_attemptsAt step (isLineCursor_lineCursors text) hs, ih (read_induction step link hs text)⟩

/-- Each attempt was at a line, in a well-formed session. -/
theorem of_mem_attempts (hs : s.Lives) (texts : List String) :
    ∀ a ∈ s.attempts texts, a.session.WellFormed ∧ IsLineCursor a.cursor a.line := fun a ha =>
  (attempts_induction (fun _ c h => h.enter c) (fun _ h => h.link) hs texts a ha).imp_left And.left

/-! ## What is remembered of them -/

/-- What a session remembers of the lines that it came to. -/
structure Remembers (s : Session) (as : List Attempt) : Prop where
  wellFormed : s.WellFormed
  /-- Their names are defined, each by one of them, -/
  defined : s.defined = as.flatMap fun a => a.reading.names
  once : s.defined.Nodup
  /-- their calls are noted, -/
  called : s.called = distinct (as.flatMap fun a => a.reading.expressions.flatten)
  /-- and those that made a formula have one, in order. -/
  formulas : List.Forall₂ (fun f a => Attempt.Made a s.graph f) s.graph.formulas (as.filter Attempt.formed)

theorem remembers_empty : Remembers {} [] := ⟨wellFormed_empty, rfl, List.nodup_nil, rfl, .nil⟩

/-- One more line, whatever comes of it. -/
theorem Remembers.enter (h : s.Remembers as) (c : Cursor) : (s.enter c).session.Remembers (as ++ [⟨s, c⟩]) := by
  obtain ⟨hdefined, hcalled, hgrows, hunformed, hformed⟩ := enters h.wellFormed c
  obtain ⟨hnodup, hfresh⟩ := s.names_reading_fresh c
  have hold : List.Forall₂ (fun f a => Attempt.Made a (s.enter c).session.graph f) s.graph.formulas
      (as.filter Attempt.formed) := by
    refine ((List.forall₂_and_left (p := (· ∈ s.graph.formulas)) _ _).mpr ⟨fun _ hf => hf, h.formulas⟩).imp ?_
    rintro f a ⟨hf, d, v, hd, hv⟩
    exact ⟨d, v, hd, hv.grows hf hgrows⟩
  refine ⟨h.wellFormed.enter c, ?_, ?_, ?_, ?_⟩
  · rw [hdefined, h.defined, List.flatMap_append, List.flatMap_singleton]
    rfl
  · rw [hdefined]
    refine List.nodup_append.mpr ⟨h.once, hnodup, fun x hx y hy hxy => hfresh y hy (hxy ▸ hx)⟩
  · rw [hcalled, h.called, List.flatMap_append, List.flatMap_singleton, distinct, distinct, addAll_append]
    rfl
  · rw [List.filter_append]
    cases hd : (s.enter c).declaration with
    | none =>
      have hnot : Attempt.formed ⟨s, c⟩ = false := by rw [Attempt.formed, Attempt.entry, hd]; rfl
      rw [hunformed hd, List.filter_singleton, hnot, cond_false, List.append_nil]
      exact hold
    | some d =>
      have hyes : Attempt.formed ⟨s, c⟩ = true := by rw [Attempt.formed, Attempt.entry, hd]; rfl
      obtain ⟨f, v, hformulas, hrecords, -⟩ := hformed d hd
      rw [hformulas, List.filter_singleton, hyes, cond_true]
      exact List.rel_append hold (.cons ⟨d, v, hd, hrecords⟩ .nil)

/-- The lines of a text. -/
theorem Remembers.enterAll (h : s.Remembers as) (cs : List Cursor) :
    (s.enterAll cs).1.Remembers (as ++ s.attemptsAt cs) := by
  induction cs generalizing s as with
  | nil => rwa [attemptsAt, List.append_nil]
  | cons c cs ih =>
    have hnext := h.enter c
    rw [Session.enterAll, attemptsAt, List.append_cons]
    cases (s.enter c).outcome with
    | error e => rwa [List.append_nil]
    | ok u => exact ih hnext

theorem Remembers.link (h : s.Remembers as) : Remembers { s with graph := s.graph.link } as := by
  refine ⟨h.wellFormed.addEdges fun e he => ?_, h.defined, h.once, h.called, ?_⟩
  · obtain ⟨ha, hb, hne, -⟩ := Graph.mem_linkEdges.mp he
    exact .inr ⟨ha, hb, hne⟩
  · change List.Forall₂ _ (s.graph.addEdges s.graph.linkEdges).formulas _
    rw [(Graph.addEdges_keeps _ _).2.2]
    refine h.formulas.imp ?_
    rintro f a ⟨d, v, hd, hv⟩
    obtain ⟨v', hv'⟩ := hv.addEdges s.graph.linkEdges
    exact ⟨d, v', hd, hv'⟩

/-- A text. -/
theorem Remembers.read (h : s.Remembers as) (text : String) :
    (s.read text).session.Remembers (as ++ s.attemptsAt (lineCursors (terminated text.toList))) := by
  have hlines := h.enterAll (lineCursors (terminated text.toList))
  cases hout : (s.enterText text).2.2 with
  | error e => exact read_of_error hout ▸ hlines
  | ok u =>
    by_cases hnil : (s.enterText text).1.undefined = []
    · exact read_of_linked hout hnil ▸ hlines.link
    · exact read_of_undefined hout hnil ▸ hlines

/-- Any number of texts. -/
theorem Remembers.after (h : s.Remembers as) (texts : List String) :
    (s.after texts).Remembers (as ++ s.attempts texts) := by
  induction texts generalizing s as with
  | nil => rwa [attempts, List.append_nil]
  | cons text texts ih =>
    rw [attempts, ← List.append_assoc]
    exact ih (h.read text)

theorem remembers_after (texts : List String) : (after {} texts).Remembers (attempts {} texts) :=
  remembers_empty.after texts

/-! ## The formulas -/

/-- An accepted line made a formula. -/
theorem formed_of_accepted {a : Attempt} (hs : a.session.WellFormed) (h : a.accepted) : a.formed := by
  have hway := way_enter hs.graph.named a.cursor
  rw [Attempt.accepted, Attempt.entry] at h
  rw [Attempt.formed, Attempt.entry]
  generalize a.session.enter a.cursor = entry at hway h ⊢
  cases hway with
  | noToken _ => cases h
  | unread _ _ => cases h
  | unmatched _ _ _ => cases h
  | circular _ _ _ _ _ _ _ _ => cases h
  | formula _ _ _ _ => rfl

theorem isOk_iff {ε : Type} {outcome : Except ε Unit} : outcome.isOk ↔ outcome = .ok () := by
  cases outcome <;> simp [Except.isOk, Except.toBool]

/-- What is known of each line that a session came to: whether it made a formula, whether it was accepted, and how much
of it the label is. -/
theorem attempt_spec {a : Attempt} (hs : a.session.WellFormed) (hc : IsLineCursor a.cursor a.line) :
    (a.formed ↔ Admits a.session.defined a.line) ∧ (a.accepted ↔ Accepts a.session.defined a.line) ∧
      ∀ d, a.entry.declaration = some d →
        ∃ rest, (unindented a.line).toList = d.label.toList ++ rest ∧ (a.accepted ↔ rest = []) := by
  refine ⟨declaration_isSome_iff hs.graph hc, isOk_iff.trans (enter_outcome_iff hs.graph hc), fun d hd => ?_⟩
  obtain ⟨rest, hlabel, hrest⟩ := label_beginning hs.graph hc hd
  exact ⟨rest, hlabel, isOk_iff.trans hrest⟩

/-- The label of an accepted line is the line. -/
theorem nameOf?_of_made {a : Attempt} (hs : a.session.WellFormed) (hc : IsLineCursor a.cursor a.line)
    (h : a.accepted) {g : Graph} {f : Handle} (hmade : a.Made g f) : g.nameOf? f = some (unindented a.line) := by
  obtain ⟨d, v, hd, hv⟩ := hmade
  obtain ⟨rest, hlabel, hrest⟩ := (attempt_spec hs hc).2.2 d hd
  rw [hrest.mp h, List.append_nil] at hlabel
  rw [Graph.nameOf?, hv.vertex, Option.map_some, hv.name, String.toList_injective hlabel]

/-- **The formulas after any texts** are those of the lines that opened with a declaration, in order. The label of a
formula is a beginning of its line, and all of it if the line was accepted. So the formulas are those of the accepted
lines just if no line was refused for what stands behind its declaration. -/
theorem formulas_after_texts (texts : List String) :
    List.Forall₂ (fun f a => Attempt.Made a (after {} texts).graph f) (after {} texts).graph.formulas
      ((attempts {} texts).filter Attempt.formed) ∧
    (∀ a ∈ attempts {} texts,
      (a.formed ↔ Admits a.session.defined a.line) ∧ (a.accepted ↔ Accepts a.session.defined a.line) ∧
      ∀ d, a.entry.declaration = some d →
        ∃ rest, (unindented a.line).toList = d.label.toList ++ rest ∧ (a.accepted ↔ rest = [])) ∧
    ((after {} texts).graph.formulas.map (after {} texts).graph.nameOf? =
        ((attempts {} texts).filter Attempt.accepted).map (fun a => some (unindented a.line)) ↔
      ∀ a ∈ attempts {} texts, a.formed → a.accepted) := by
  have hmade := (remembers_after texts).formulas
  have hattempts := of_mem_attempts lives_empty texts
  have hformed : ∀ a ∈ attempts {} texts, a.accepted → a.formed := fun a ha =>
    formed_of_accepted (hattempts a ha).1
  refine ⟨hmade, fun a ha => attempt_spec (hattempts a ha).1 (hattempts a ha).2, fun heq a ha hf => ?_, fun hall => ?_⟩
  · -- there are as many accepted lines as formulas, so as many as lines that made one
    have hlength := congrArg List.length heq
    rw [List.length_map, List.length_map, hmade.length_eq] at hlength
    have hfilter : (attempts {} texts).filter Attempt.accepted =
        ((attempts {} texts).filter Attempt.formed).filter Attempt.accepted := by
      rw [List.filter_filter]
      refine List.filter_congr fun a ha => Bool.eq_iff_iff.mpr ?_
      rw [Bool.and_eq_true]
      exact (and_iff_left_of_imp (hformed a ha)).symm
    rw [hfilter] at hlength
    exact List.length_filter_eq_length_iff.mp hlength.symm a (List.mem_filter.mpr ⟨ha, hf⟩)
  · have hfilter : (attempts {} texts).filter Attempt.accepted = (attempts {} texts).filter Attempt.formed :=
      List.filter_congr fun a ha => Bool.eq_iff_iff.mpr ⟨hformed a ha, hall a ha⟩
    have hlabels : List.Forall₂ (· = ·)
        (((attempts {} texts).filter Attempt.formed).map fun a => some (unindented a.line))
        ((after {} texts).graph.formulas.map (after {} texts).graph.nameOf?) := by
      rw [List.forall₂_map_left_iff, List.forall₂_map_right_iff]
      refine ((List.forall₂_and_left (p := (· ∈ (attempts {} texts).filter Attempt.formed)) _ _).mpr
        ⟨fun _ ha => ha, hmade.flip⟩).imp ?_
      rintro a f ⟨ha, hf⟩
      obtain ⟨ha, hformed⟩ := List.mem_filter.mp ha
      exact (nameOf?_of_made (hattempts a ha).1 (hattempts a ha).2 (hall a ha hformed) hf).symm
    rw [List.forall₂_eq_eq_eq] at hlabels
    rw [hfilter, hlabels]

/-- The bracket at the end of `a = 1 )` is met when its formula has been made. -/
theorem formulas_after_bracket :
    (attempts {} ["a = 1 )"]).map Attempt.line = ["a = 1 )"] ∧
    (attempts {} ["a = 1 )"]).map Attempt.accepted = [false] ∧
    (after {} ["a = 1 )"]).graph.formulas.map (after {} ["a = 1 )"]).graph.nameOf? = [some "a = 1 "] := by
  decide +kernel

end Session

end EvalOrder
