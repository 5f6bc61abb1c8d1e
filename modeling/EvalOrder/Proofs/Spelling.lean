import EvalOrder.Proofs.Placement
import EvalOrder.Proofs.Renaming

/-!
# How a text is spelled

What becomes of a text is settled by the kinds of its tokens, line by line, and by which of its names are the same. So
two texts whose lines have tokens of the same kinds, and names that correspond one by one under a renaming, are accepted
or refused alike: with graphs that differ in names and labels only, of which the orders or the circles are the same, or
for the same cause. Blanks, the values of numbers, which sign stands for an operator and how names are spelled play no
part.

Results:
* `mirrors_of_kinds`: what corresponds in two lines.
* `afterLines_renamed`: the sessions after the lines.
* **`readFormulas_respelled`**: the texts.
-/

namespace EvalOrder

namespace Lexed

/-- The kinds of the tokens, in order; where no token begins, what is wrong comes last. -/
def kinds : Lexed → List (Except SyntaxCause Tag)
  | token t rest => .ok t.tag :: rest.kinds
  | done t => [.ok t.tag]
  | broken (.malformed m) => [.error m.cause]
  | broken _ => []

/-- They are told by the window of a cursor. -/
theorem kinds_ofCursor {c : Cursor} (h : c.Bounded) :
    (ofCursor c).kinds = (outline c.window).map (Except.map Word.tag) := by
  refine ofCursor_induction (P := fun c s => s.kinds = (outline c.window).map (Except.map Word.tag))
    (fun c cause _ hk => ?_) (fun c _ hk => ?_) (fun c tag _ hk ht ih => ?_) c h
  · rw [outline_of_error hk]
    rfl
  · rw [outline_of_endOfText hk]
    rfl
  · rw [outline_of_ok hk ht, kinds, ih, Lexeme.window_follow]
    rfl

/-- Tokens do not end because of an undeclared name. -/
theorem failure_not_undeclares {c : Cursor} (h : c.Bounded) {e : Failure} (he : (ofCursor c).failure? = some e) :
    ¬ e.Undeclares := by
  refine ofCursor_induction (P := fun _ s => s.failure? = some e → ¬ e.Undeclares)
    (fun c cause _ hk he => ?_) (fun c _ _ he => by cases he) (fun c tag _ _ _ ih => ih) c h he
  rintro ⟨place, names, rfl⟩
  obtain rfl : cause = .undefined names := congrArg Malformed.cause (Failure.malformed.inj (Option.some.inj he))
  exact lexeme_kind_ne_undefined _ _ hk

/-- **What corresponds in two lines** whose tokens are of the same kinds and whose names correspond. -/
theorem mirrors_of_kinds {r : String → String} {known : Set String} : ∀ {s s' : Lexed}, s.Proper → s'.Proper →
    (∀ e, s.failure? = some e → ¬ e.Undeclares) → s'.kinds = s.kinds → idents s'.words = (idents s.words).map r →
      (∀ x ∈ idents s.words, x ∈ known) → Mirrors (Token.Renamed r known) (Failure.Renamed r) s s'
  | .token t rest, .token t' rest', hs, hs', hfailure, hkinds, hidents, hknown => by
    obtain ⟨hfirst, hrest⟩ := List.cons.inj hkinds
    have htag : t'.tag = t.tag := Except.ok.inj hfirst
    rw [words_token, words_token] at hidents
    rw [words_token] at hknown
    by_cases hident : t.word.tag = .ident
    · have hident' : t'.word.tag = .ident := htag.trans hident
      rw [idents_cons_of_ident hident, idents_cons_of_ident hident', List.map_cons] at hidents
      rw [idents_cons_of_ident hident, List.forall_mem_cons] at hknown
      obtain ⟨htext, hidents⟩ := List.cons.inj hidents
      exact .token ⟨htag, fun _ => ⟨hknown.1, htext⟩⟩
        (mirrors_of_kinds hs.2 hs'.2 hfailure hrest hidents hknown.2)
    · have hident' : t'.word.tag ≠ .ident := fun h => hident (htag.symm.trans h)
      rw [idents_cons_of_ne hident, idents_cons_of_ne hident'] at hidents
      rw [idents_cons_of_ne hident] at hknown
      exact .token ⟨htag, fun h => absurd h hident⟩
        (mirrors_of_kinds hs.2 hs'.2 hfailure hrest hidents hknown)
  | .done t, .done t', hs, _, _, hkinds, _, _ => by
    have htag : t'.tag = t.tag := Except.ok.inj (List.cons.inj hkinds).1
    have hend : t.tag = .endOfText := hs
    exact .done ⟨htag, fun h => by rw [hend] at h; cases h⟩
  | .broken e, .broken e', hs, hs', hfailure, hkinds, _, _ => by
    obtain ⟨m, rfl⟩ := hs
    obtain ⟨m', rfl⟩ := hs'
    obtain ⟨place, cause⟩ := m
    obtain ⟨place', cause'⟩ := m'
    obtain rfl : cause' = cause := Except.error.inj (List.cons.inj hkinds).1
    exact .broken (Failure.renamed_malformed r _ _ fun names hcause => hfailure _ rfl ⟨place, names, by rw [hcause]⟩)
  | .token t rest, .done t', hs, hs', _, hkinds, _, _ =>
    absurd ((Except.ok.inj (List.cons.inj hkinds).1).symm.trans hs') hs.1
  | .done t, .token t' rest', hs, hs', _, hkinds, _, _ =>
    absurd ((Except.ok.inj (List.cons.inj hkinds).1).trans hs) hs'.1
  | .token _ _, .broken _, _, ⟨_, rfl⟩, _, hkinds, _, _ => nomatch (List.cons.inj hkinds).1
  | .done _, .broken _, _, ⟨_, rfl⟩, _, hkinds, _, _ => nomatch (List.cons.inj hkinds).1
  | .broken _, .token _ _, ⟨_, rfl⟩, _, _, hkinds, _, _ => nomatch (List.cons.inj hkinds).1
  | .broken _, .done _, ⟨_, rfl⟩, _, _, hkinds, _, _ => nomatch (List.cons.inj hkinds).1

end Lexed

/-- The second line has tokens of the same kinds as the first, and its names are those of the first, renamed. -/
structure Respells (r : String → String) (line line' : String) : Prop where
  kinds : (lexed line').kinds = (lexed line).kinds
  names : idents (lexed line').words = (idents (lexed line).words).map r

/-- The names in a text. -/
def mentionedNames (text : String) : Set String := {x | ∃ line ∈ textLines text, x ∈ idents (lexed line).words}

theorem kinds_lexed (line : String) : (lexed line).kinds = (outline line.toList).map (Except.map Word.tag) := by
  rw [lexed, Lexed.kinds_ofCursor (Cursor.ofString_bounded line), Cursor.ofString_window]

namespace IsLineCursor

variable {c c' : Cursor} {line line' : String}

/-- Through its cursor a line has tokens of the same kinds as by itself. -/
theorem kinds (h : IsLineCursor c line) : (Lexed.ofCursor c).kinds = (lexed line).kinds := by
  rw [Lexed.kinds_ofCursor h.bounded, h.window, outline_append_lineFeed, kinds_lexed]

/-- What corresponds in lines of two texts. -/
theorem mirrors {r : String → String} {known : Set String} (h : IsLineCursor c line) (h' : IsLineCursor c' line')
    (hline : Respells r line line') (hknown : ∀ x ∈ idents (lexed line).words, x ∈ known) :
    Lexed.Mirrors (Token.Renamed r known) (Failure.Renamed r) (.ofCursor c) (.ofCursor c') := by
  refine Lexed.mirrors_of_kinds (proper_ofCursor h.bounded) (proper_ofCursor h'.bounded)
    (fun _ => Lexed.failure_not_undeclares h.bounded) ?_ ?_ ?_
  · rw [h.kinds, h'.kinds, hline.kinds]
  · rw [h.words, h'.words, hline.names]
  · rw [h.words]
    exact hknown

end IsLineCursor

/-! ## Whole texts -/

section Texts

variable {r : String → String} {text text' : String}

/-- The lines of the texts correspond. -/
theorem forall₂_mirrors (hlines : List.Forall₂ (Respells r) (textLines text) (textLines text')) :
    List.Forall₂ (fun c c' => Lexed.Mirrors (Token.Renamed r (mentionedNames text)) (Failure.Renamed r)
      (.ofCursor c) (.ofCursor c')) (lineCursors (terminated text.toList)) (lineCursors (terminated text'.toList)) := by
  have hknown : ∀ line ∈ textLines text, ∀ x ∈ idents (lexed line).words, x ∈ mentionedNames text :=
    fun line hline x hx => ⟨line, hline, hx⟩
  have hcursors := isLineCursor_lineCursors text
  have hcursors' := isLineCursor_lineCursors text'
  generalize mentionedNames text = known at hknown ⊢
  generalize lineCursors (terminated text.toList) = cs at hcursors ⊢
  generalize lineCursors (terminated text'.toList) = cs' at hcursors' ⊢
  generalize textLines text = ls at hlines hknown hcursors
  generalize textLines text' = ls' at hlines hcursors'
  induction hlines generalizing cs cs' with
  | nil =>
    cases hcursors
    cases hcursors'
    exact .nil
  | cons hline _ ih =>
    obtain ⟨hfirst, hknown⟩ := List.forall_mem_cons.mp hknown
    cases hcursors with
    | cons hc hcs =>
      cases hcursors' with
      | cons hc' hcs' => exact .cons (hc.mirrors hc' hline hfirst) (ih _ _ hknown hcs hcs')

/-- The sessions after the lines. -/
theorem afterLines_renamed (hr : Set.InjOn r (mentionedNames text))
    (hlines : List.Forall₂ (Respells r) (textLines text) (textLines text')) :
    Session.Renamed (mentionedNames text) r (afterLines text).1 (afterLines text').1 ∧
      Together (Failure.Renamed r) Eq (afterLines text).2.2 (afterLines text').2.2 :=
  (Session.Renamed.empty _ r).enterAll Session.wellFormed_empty hr (forall₂_mirrors hlines)

/-- The texts are accepted or refused alike. -/
theorem readFormulas_renamed (hr : Set.InjOn r (mentionedNames text))
    (hlines : List.Forall₂ (Respells r) (textLines text) (textLines text')) :
    Together (Failure.Renamed r) (Graph.Renamed r) (readFormulas text) (readFormulas text') := by
  obtain ⟨hsession, hout⟩ := afterLines_renamed hr hlines
  have hundefined := hsession.undefined hr
  rw [readFormulas_eq, readFormulas_eq, hundefined]
  generalize (afterLines text).2.2 = outcome at hout
  generalize (afterLines text').2.2 = outcome' at hout
  cases hout with
  | error he => exact .error he
  | ok _ =>
    simp only [ne_eq, List.map_eq_nil_iff]
    split
    · exact .error (.malformed _ _ (.undefined _))
    · exact .ok hsession.graph.toRenamed.link

/-- **Texts that are spelled differently.** If their lines have tokens of the same kinds, and names that correspond
under a renaming which gives no two names one, then both are accepted or both refused. If they are accepted, their
graphs are the same but for names, which are renamed, and labels; and ordering them leaves the same vertices with the
same ranks, in the same order, or comes to a circle of the same formulas. If they are refused, it is for the same
cause, said of the renamed names. -/
theorem readFormulas_respelled (hr : Set.InjOn r (mentionedNames text))
    (hlines : List.Forall₂ (Respells r) (textLines text) (textLines text')) :
    Together (Failure.Renamed r)
      (fun g g' => g.Renamed r g' ∧ g.order.1.SameShape g'.order.1 ∧
        Together (g.SameCircle g') Eq g.order.2 g'.order.2)
      (readFormulas text) (readFormulas text') := by
  have hread := readFormulas_renamed hr hlines
  generalize hok : readFormulas text = result at hread
  generalize readFormulas text' = result' at hread
  cases hread with
  | error he => exact .error he
  | ok hg => exact .ok ⟨hg, hg.toSameShape.order (Graph.renders_readFormulas hok).linked⟩

end Texts

/-- The lines `a=1` and `b=a+1`, with the names `x` and `y`, other numbers, another sign and blanks. -/
theorem readFormulas_other_spelling :
    (Set.InjOn (fun s => if s = "a" then "x" else "y") (mentionedNames "a=1\nb=a+1") ∧
      List.Forall₂ (Respells fun s => if s = "a" then "x" else "y") (textLines "a=1\nb=a+1")
        (textLines " x = 20\ny=x - 3\n")) ∧
    ∃ g g', readFormulas "a=1\nb=a+1" = .ok g ∧ readFormulas " x = 20\ny=x - 3\n" = .ok g' ∧
      g.Renamed (fun s => if s = "a" then "x" else "y") g' ∧ g.order.1.SameShape g'.order.1 ∧
        Together (g.SameCircle g') Eq g.order.2 g'.order.2 := by
  have hlines : textLines "a=1\nb=a+1" = ["a=1", "b=a+1"] := by decide +kernel
  have hlines' : textLines " x = 20\ny=x - 3\n" = [" x = 20", "y=x - 3"] := by decide +kernel
  obtain ⟨hfirst, hfirst', hsecond, hsecond'⟩ :
      outline "a=1".toList =
        [.ok ⟨.ident, "a"⟩, .ok ⟨.equalSign, "="⟩, .ok ⟨.number, "1"⟩, .ok ⟨.endOfText, ""⟩] ∧
      outline " x = 20".toList =
        [.ok ⟨.ident, "x"⟩, .ok ⟨.equalSign, "="⟩, .ok ⟨.number, "20"⟩, .ok ⟨.endOfText, ""⟩] ∧
      outline "b=a+1".toList = [.ok ⟨.ident, "b"⟩, .ok ⟨.equalSign, "="⟩, .ok ⟨.ident, "a"⟩,
        .ok ⟨.sumSign, "+"⟩, .ok ⟨.number, "1"⟩, .ok ⟨.endOfText, ""⟩] ∧
      outline "y=x - 3".toList = [.ok ⟨.ident, "y"⟩, .ok ⟨.equalSign, "="⟩, .ok ⟨.ident, "x"⟩,
        .ok ⟨.sumSign, "-"⟩, .ok ⟨.number, "3"⟩, .ok ⟨.endOfText, ""⟩] :=
    ⟨by cbv, by cbv, by cbv, by cbv⟩
  have hrespells : List.Forall₂ (Respells fun s => if s = "a" then "x" else "y") (textLines "a=1\nb=a+1")
      (textLines " x = 20\ny=x - 3\n") := by
    rw [hlines, hlines']
    refine .cons ⟨?_, ?_⟩ (.cons ⟨?_, ?_⟩ .nil)
    · rw [kinds_lexed, kinds_lexed, hfirst, hfirst']
      rfl
    · rw [words_lexed, words_lexed, hfirst, hfirst']
      rfl
    · rw [kinds_lexed, kinds_lexed, hsecond, hsecond']
      rfl
    · rw [words_lexed, words_lexed, hsecond, hsecond']
      rfl
  have hmentioned : ∀ x ∈ mentionedNames "a=1\nb=a+1", x = "a" ∨ x = "b" := by
    rintro x ⟨line, hline, hx⟩
    rw [hlines] at hline
    rcases List.mem_pair.mp hline with rfl | rfl
    · rw [words_lexed, hfirst] at hx
      exact .inl (List.mem_singleton.mp hx)
    · rw [words_lexed, hsecond] at hx
      exact (List.mem_pair.mp hx).symm
  have hr : Set.InjOn (fun s => if s = "a" then "x" else "y") (mentionedNames "a=1\nb=a+1") := by
    intro x hx y hy hxy
    rcases hmentioned x hx with rfl | rfl <;> rcases hmentioned y hy with rfl | rfl <;> simp_all
  have hdeclares : Declares "b=a+1" ["b"] [[⟨.ident, "a"⟩, ⟨.sumSign, "+"⟩, ⟨.number, "1"⟩]] := by
    constructor
    · rw [failure?_lexed, hsecond]
      simp [Except.isOk, Except.toBool]
    · rw [words_lexed, hsecond]
      exact .line (l := [⟨.ident, "b"⟩]) (.last rfl) rfl
        (.last (.sum (w := [⟨.ident, "a"⟩]) (.var (.ident rfl)) rfl (.mul (.var (.number rfl))))) rfl
  obtain ⟨g, hread⟩ := exists_readFormulas_of_pair hlines declares_a_1 hdeclares (by decide) (by simp [idents])
    (by simp [idents])
  have halike := readFormulas_respelled hr hrespells
  rw [hread] at halike
  generalize hread' : readFormulas " x = 20\ny=x - 3\n" = result' at halike
  cases halike with
  | @ok _ g' hg => exact ⟨⟨hr, hrespells⟩, g, g', hread, rfl, hg⟩

end EvalOrder
