import EvalOrder.Proofs.Acceptance

/-!
# Reading a text

Lines are entered one after another until one is refused. What holds after some lines is `Holds`: it holds
of the empty session, each accepted line keeps it, and so it holds of the session of an accepted text.
A text is accepted if all its lines are and every called name is declared somewhere.

Results:
* `acceptsAll_iff`, `AcceptsAll.perm`: when all lines of a list are accepted, each after those before it.
* `enterAll_outcome_iff`, `holds_enterAll`: the run over the lines of a text.
* `readFormulas_eq_ok_iff`, `readFormulas_of_undeclared`, `readFormulas_error`: how reading a text ends.
* **`readFormulas_ok_iff`**: the texts that are accepted, and what is said of one whose lines are fine but
  which calls undeclared names.
-/

namespace EvalOrder

open Grammar

/-- Each line is accepted after those before it. -/
def AcceptsAll (defined : List String) : List String → Prop
  | [] => True
  | line :: more => Accepts defined line ∧ AcceptsAll (defined ++ declaredNames line) more

/-- Lines are accepted if each is a declaration, no name is declared twice, and no line calls a name of its
own. -/
theorem acceptsAll_iff {ls : List String} {defined : List String} :
    AcceptsAll defined ls ↔
      (∀ line ∈ ls, ∃ names sums, Declares line names sums ∧ names.length = sums.length) ∧
        ((ls.flatMap declaredNames).Nodup ∧ ∀ x ∈ ls.flatMap declaredNames, x ∉ defined) ∧
        ∀ line ∈ ls, ∀ x ∈ calledNames line, x ∉ declaredNames line := by
  induction ls generalizing defined with
  | nil => simp [AcceptsAll]
  | cons line ls ih =>
    rw [AcceptsAll, ih, List.flatMap_cons, List.nodup_append]
    simp only [List.forall_mem_cons, List.mem_append, not_or]
    constructor
    · rintro ⟨⟨hdeclares, hnodup, hfresh, hapart⟩, hmore, ⟨hnodup', hfresh'⟩, hapart'⟩
      refine ⟨⟨hdeclares, hmore⟩, ⟨⟨hnodup, hnodup', ?_⟩, ?_⟩, hapart, hapart'⟩
      · intro a ha b hb hab
        exact (hfresh' b hb).2 (hab ▸ ha)
      · intro x hx
        exact hx.elim (hfresh x) fun hx => (hfresh' x hx).1
    · rintro ⟨⟨hdeclares, hmore⟩, ⟨⟨hnodup, hnodup', hdisjoint⟩, hfresh⟩, hapart, hapart'⟩
      refine ⟨⟨hdeclares, hnodup, ?_, hapart⟩, hmore, ⟨hnodup', ?_⟩, hapart'⟩
      · intro x hx
        exact hfresh x (.inl hx)
      · intro x hx
        exact ⟨hfresh x (.inr hx), fun hx' => hdisjoint x hx' x hx rfl⟩

/-- With nothing defined before. A line has only one number of names and of expressions, so these may be
compared in all its readings. -/
theorem acceptsAll_nil_iff {ls : List String} :
    AcceptsAll [] ls ↔
      (∀ line ∈ ls, ∃ names sums, Declares line names sums) ∧
      (∀ line ∈ ls, ∀ names sums, Declares line names sums → names.length = sums.length) ∧
      (ls.flatMap declaredNames).Nodup ∧ ∀ line ∈ ls, ∀ x ∈ calledNames line, x ∉ declaredNames line := by
  rw [acceptsAll_iff]
  constructor
  · rintro ⟨hdeclares, ⟨hnodup, -⟩, hapart⟩
    refine ⟨?_, ?_, hnodup, hapart⟩
    · intro line hline
      obtain ⟨names, sums, h, -⟩ := hdeclares line hline
      exact ⟨names, sums, h⟩
    · intro line hline names sums h
      obtain ⟨names', sums', h', hlen⟩ := hdeclares line hline
      rw [← h.declaredNames_eq, h'.declaredNames_eq, hlen, h'.length_unique h]
  · rintro ⟨hdeclares, hlen, hnodup, hapart⟩
    refine ⟨?_, ⟨hnodup, by simp⟩, hapart⟩
    intro line hline
    obtain ⟨names, sums, h⟩ := hdeclares line hline
    exact ⟨names, sums, h, hlen line hline names sums h⟩

/-- Accepted lines are accepted in any order. -/
theorem AcceptsAll.perm {ls ls' : List String} (h : AcceptsAll [] ls) (hperm : ls.Perm ls') :
    AcceptsAll [] ls' := by
  obtain ⟨hdeclares, ⟨honce, -⟩, hapart⟩ := acceptsAll_iff.mp h
  refine acceptsAll_iff.mpr ⟨?_, ⟨?_, by simp⟩, ?_⟩
  · exact fun line hline => hdeclares line (hperm.mem_iff.mpr hline)
  · exact (hperm.flatMap_right declaredNames).nodup_iff.mp honce
  · exact fun line hline => hapart line (hperm.mem_iff.mpr hline)

namespace Session

/-- What holds of a session after some lines: their names are defined, their calls noted, and a formula
stands in the graph for each of them, not yet related to any other. -/
structure Holds (s : Session) (ls : List String) : Prop where
  wellFormed : s.WellFormed
  defined : s.defined = ls.flatMap declaredNames
  called : s.called = distinct (ls.flatMap calledNames)
  formulas : List.Forall₂ (fun f line => ∃ v, s.graph.Shows f line v ∧ v.related = [])
    s.graph.formulas ls

theorem holds_empty : Holds {} [] := ⟨wellFormed_empty, rfl, rfl, .nil⟩

/-- One more line. -/
theorem Holds.adds {s s' : Session} {ls : List String} {line : String} (h : s.Holds ls)
    (hwf : s'.WellFormed) (hadds : Adds s s' line) : s'.Holds (ls ++ [line]) := by
  obtain ⟨f, v, hformulas, hshows, hrelated⟩ := hadds.formula
  constructor
  case wellFormed =>
    exact hwf
  case defined =>
    rw [hadds.defined, h.defined, List.flatMap_append, List.flatMap_singleton]
  case called =>
    rw [hadds.called, h.called, List.flatMap_append, List.flatMap_singleton, distinct, distinct,
      addAll_append]
  case formulas =>
    rw [hformulas]
    refine List.rel_append ?_ (.cons ⟨v, hshows, hrelated⟩ .nil)
    have hmem := (List.forall₂_and_left (p := (· ∈ s.graph.formulas)) _ _).mpr ⟨fun _ hf => hf, h.formulas⟩
    refine hmem.imp ?_
    rintro f' line' ⟨hf', v', hshows', hrelated'⟩
    exact ⟨v', hshows'.grows hf' hadds.grows, hrelated'⟩

/-! ## The run over the lines -/

theorem enterAll_outcome_iff {cs : List Cursor} {ls : List String} (h : List.Forall₂ IsLineCursor cs ls)
    {s : Session} (hs : s.WellFormed) : (s.enterAll cs).2.2 = .ok () ↔ AcceptsAll s.defined ls := by
  induction h generalizing s with
  | nil => exact iff_of_true rfl trivial
  | @cons c line cs ls hc _ ih =>
    have hfirst := enter_outcome_iff hs.graph hc
    rw [AcceptsAll, ← hfirst, enterAll]
    cases hout : (s.enter c).outcome with
    | error e => simp
    | ok u =>
      have hadds := adds_enter hs hc hout
      rw [← hadds.defined, ← ih (hs.enter c)]
      simp

theorem holds_enterAll {cs : List Cursor} {ls : List String} (h : List.Forall₂ IsLineCursor cs ls)
    {s : Session} {before : List String} (hs : s.Holds before) (hok : (s.enterAll cs).2.2 = .ok ()) :
    (s.enterAll cs).1.Holds (before ++ ls) := by
  induction h generalizing s before with
  | nil => simpa [enterAll] using hs
  | @cons c line cs ls hc _ ih =>
    rw [enterAll] at hok ⊢
    cases hout : (s.enter c).outcome with
    | error e =>
      rw [hout] at hok
      cases hok
    | ok u =>
      simp only [hout] at hok ⊢
      have hadds := adds_enter hs.wellFormed hc hout
      have hnext := ih (hs.adds (hs.wellFormed.enter c) hadds) hok
      rwa [List.append_assoc, List.singleton_append] at hnext

/-- A run ends early because a line is malformed or calls a name of its own. -/
theorem enterAll_error {cs : List Cursor} (hcs : ∀ c ∈ cs, c.Bounded) {s : Session} (hs : s.WellFormed)
    {e : Failure} (h : (s.enterAll cs).2.2 = .error e) :
    (∃ m, e = .malformed m) ∨ ∃ x y, e = .cyclic (.onLine x y) := by
  obtain ⟨c, hc, s', hs', he⟩ := exists_enter_error h
  exact enter_error (hs' hs).graph.named (hcs c hc) he

end Session

/-! ## A whole text -/

open Session

/-- The session after the lines of a text. -/
def afterLines (text : String) : Session × List Declaration × Except Failure Unit :=
  Session.enterAll {} (lineCursors (terminated text.toList))

/-- The names that a text calls and does not declare, in the order of the first call. -/
def undeclared (text : String) : List String :=
  (distinct ((textLines text).flatMap calledNames)).filter (· ∉ (textLines text).flatMap declaredNames)

theorem readFormulas_eq (text : String) :
    readFormulas text = match (afterLines text).2.2 with
      | .error e => .error e
      | .ok () =>
        if (afterLines text).1.undefined ≠ [] then
          .error (.malformed ⟨Place.afterAll {} (terminated text.toList),
            .undefined (afterLines text).1.undefined⟩)
        else .ok (afterLines text).1.graph.link := by
  unfold readFormulas afterLines
  simp only [read_eq]
  generalize Session.enterAll {} (lineCursors (terminated text.toList)) = result
  obtain ⟨s, declarations, outcome⟩ := result
  cases outcome with
  | error e => rfl
  | ok u =>
    simp only
    split <;> rfl

theorem afterLines_outcome_iff (text : String) :
    (afterLines text).2.2 = .ok () ↔ AcceptsAll [] (textLines text) :=
  enterAll_outcome_iff (isLineCursor_lineCursors text) wellFormed_empty

theorem holds_afterLines {text : String} (h : (afterLines text).2.2 = .ok ()) :
    (afterLines text).1.Holds (textLines text) :=
  holds_enterAll (isLineCursor_lineCursors text) holds_empty h

theorem undefined_afterLines {text : String} (h : (afterLines text).2.2 = .ok ()) :
    (afterLines text).1.undefined = undeclared text := by
  have hholds := holds_afterLines h
  rw [Session.undefined, hholds.called, hholds.defined, undeclared]

/-- A text is accepted if its lines are and nothing stays undeclared; its graph is then that of the lines,
linked. -/
theorem readFormulas_eq_ok_iff {text : String} {g : Graph} :
    readFormulas text = .ok g ↔
      AcceptsAll [] (textLines text) ∧ undeclared text = [] ∧ g = (afterLines text).1.graph.link := by
  rw [readFormulas_eq, ← afterLines_outcome_iff]
  cases hout : (afterLines text).2.2 with
  | error e => simp
  | ok u =>
    rw [undefined_afterLines hout]
    by_cases hnil : undeclared text = []
    · simp [hnil, eq_comm]
    · simp [hnil]

/-- Accepted lines that call undeclared names. -/
theorem readFormulas_of_undeclared {text : String} (h : AcceptsAll [] (textLines text))
    (hne : undeclared text ≠ []) :
    readFormulas text = .error (.malformed ⟨Place.afterAll {} (terminated text.toList),
      .undefined (undeclared text)⟩) := by
  have hout := (afterLines_outcome_iff text).mpr h
  rw [readFormulas_eq, hout, undefined_afterLines hout]
  simp [hne]

/-- A text is refused as malformed, or because a line calls a name of its own. -/
theorem readFormulas_error {text : String} {e : Failure} (h : readFormulas text = .error e) :
    (∃ m, e = .malformed m) ∨ ∃ x y, e = .cyclic (.onLine x y) := by
  rw [readFormulas_eq] at h
  cases hout : (afterLines text).2.2 with
  | error e' =>
    rw [hout] at h
    obtain rfl := Except.error.inj h
    exact enterAll_error (fun c hc => bounded_of_mem_lineCursors hc) wellFormed_empty hout
  | ok u =>
    simp only [hout] at h
    split at h
    · obtain rfl := Except.error.inj h
      exact .inl ⟨_, rfl⟩
    · cases h

theorem undeclared_eq_nil_iff {text : String} :
    undeclared text = [] ↔ ∀ line ∈ textLines text, ∀ x ∈ calledNames line,
      ∃ other ∈ textLines text, x ∈ declaredNames other := by
  simp only [undeclared, List.filter_eq_nil_iff, mem_distinct, List.mem_flatMap, decide_not]
  constructor
  · intro h line hline x hx
    simpa using h x ⟨line, hline, hx⟩
  · rintro h x ⟨line, hline, hx⟩
    simpa using h line hline x hx

/-- Two lines that declare different names, and call each other's at most, are accepted. -/
theorem exists_readFormulas_of_pair {text line line' x y : String} {sum sum' : List Word}
    (hlines : textLines text = [line, line']) (h : Declares line [x] [sum]) (h' : Declares line' [y] [sum'])
    (hne : x ≠ y) (hsum : ∀ z ∈ idents sum, z = y) (hsum' : ∀ z ∈ idents sum', z = x) :
    ∃ g, readFormulas text = .ok g := by
  have hnames := h.declaredNames_eq
  have hnames' := h'.declaredNames_eq
  have hcalls : calledNames line = idents sum := by simpa using h.calledNames_eq
  have hcalls' : calledNames line' = idents sum' := by simpa using h'.calledNames_eq
  have haccepts : AcceptsAll [] (textLines text) := by
    rw [acceptsAll_iff, hlines]
    simp only [List.forall_mem_cons, List.flatMap_cons, hnames, hnames', hcalls, hcalls']
    refine ⟨⟨⟨_, _, h, rfl⟩, ⟨_, _, h', rfl⟩, by simp⟩, by simp [hne], ?_, ?_, by simp⟩
    · intro z hz
      rw [hsum z hz, List.mem_singleton]
      exact Ne.symm hne
    · intro z hz
      rw [hsum' z hz, List.mem_singleton]
      exact hne
  have hcomplete : undeclared text = [] := by
    rw [undeclared_eq_nil_iff, hlines]
    simp only [List.forall_mem_cons, List.exists_mem_cons_iff, hnames, hnames', hcalls, hcalls']
    refine ⟨?_, ?_, by simp⟩
    · intro z hz
      exact .inr (.inl (List.mem_singleton.mpr (hsum z hz)))
    · intro z hz
      exact .inl (List.mem_singleton.mpr (hsum' z hz))
  exact ⟨_, readFormulas_eq_ok_iff.mpr ⟨haccepts, hcomplete, rfl⟩⟩

/-- **The texts that are accepted.** Every line is a declaration with as many names as expressions, no name is
declared twice, no line calls a name of its own, and every called name is declared. Of a text that falls short
of the last of these alone it is said which called names are undeclared, each once, in the order of the
first call. -/
theorem readFormulas_ok_iff (text : String) :
    ((∃ g, readFormulas text = .ok g) ↔
      (∀ line ∈ textLines text, ∃ names sums, Declares line names sums) ∧
      (∀ line ∈ textLines text, ∀ names sums, Declares line names sums → names.length = sums.length) ∧
      ((textLines text).flatMap declaredNames).Nodup ∧
      (∀ line ∈ textLines text, ∀ x ∈ calledNames line, x ∉ declaredNames line) ∧
      ∀ line ∈ textLines text, ∀ x ∈ calledNames line, ∃ other ∈ textLines text, x ∈ declaredNames other) ∧
    ((∀ line ∈ textLines text, ∃ names sums, Declares line names sums) →
      (∀ line ∈ textLines text, ∀ names sums, Declares line names sums → names.length = sums.length) →
      ((textLines text).flatMap declaredNames).Nodup →
      (∀ line ∈ textLines text, ∀ x ∈ calledNames line, x ∉ declaredNames line) →
      (∃ line ∈ textLines text, ∃ x ∈ calledNames line, ∀ other ∈ textLines text, x ∉ declaredNames other) →
      readFormulas text = .error (.malformed ⟨Place.afterAll {} (terminated text.toList),
        .undefined (((textLines text).flatMap calledNames).eraseDups.filter
          (· ∉ (textLines text).flatMap declaredNames))⟩)) := by
  constructor
  · simp only [readFormulas_eq_ok_iff, undeclared_eq_nil_iff, acceptsAll_nil_iff, and_assoc]
    constructor
    · rintro ⟨g, hdeclares, hlen, hnodup, hapart, hcomplete, -⟩
      exact ⟨hdeclares, hlen, hnodup, hapart, hcomplete⟩
    · rintro ⟨hdeclares, hlen, hnodup, hapart, hcomplete⟩
      exact ⟨_, hdeclares, hlen, hnodup, hapart, hcomplete, rfl⟩
  · rintro hdeclares hlen hnodup hapart ⟨line, hline, x, hx, hnone⟩
    have haccepts : AcceptsAll [] (textLines text) :=
      acceptsAll_nil_iff.mpr ⟨hdeclares, hlen, hnodup, hapart⟩
    have hne : undeclared text ≠ [] := by
      intro hnil
      obtain ⟨other, hother, hmem⟩ := undeclared_eq_nil_iff.mp hnil line hline x hx
      exact hnone other hother hmem
    rw [readFormulas_of_undeclared haccepts hne, undeclared, distinct_eq_eraseDups]

/-- The line `a=b` by itself calls a name that nothing declares. -/
theorem readFormulas_one_line :
    ∃ place, readFormulas "a=b" = .error (.malformed ⟨place, .undefined ["b"]⟩) := by
  have hdeclared := declares_a_b.declaredNames_eq
  have hcalled : calledNames "a=b" = ["b"] := declares_a_b.calledNames_eq
  have hlines : textLines "a=b" = ["a=b"] := by decide +kernel
  have hlength : ∀ names sums, Declares "a=b" names sums → names.length = sums.length := by
    intro names sums h
    rw [← h.declaredNames_eq, hdeclared, ← declares_a_b.length_unique h]
    rfl
  have hmissing : ∃ line ∈ textLines "a=b", ∃ x ∈ calledNames line,
      ∀ other ∈ textLines "a=b", x ∉ declaredNames other :=
    ⟨"a=b", by simp [hlines], "b", by simp [hcalled], by simp [hlines, hdeclared]⟩
  have herror := (readFormulas_ok_iff "a=b").2
  simp only [hlines, List.forall_mem_singleton, List.flatMap_singleton, hdeclared, hcalled] at herror hmissing
  refine ⟨Place.afterAll {} (terminated "a=b".toList), ?_⟩
  rw [herror ⟨_, _, declares_a_b⟩ hlength (by decide) (by decide) hmissing]
  rfl

end EvalOrder
