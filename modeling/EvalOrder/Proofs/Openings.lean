import EvalOrder.Proofs.Acceptance

/-!
# How a line opens

A line makes its formula before it is known what stands at its end. All that counts is how it opens: with names, an
equals sign and as many expressions, and with one token more, which tells that the expressions have ended. Behind that
token anything may stand. So a line can be refused and leave a formula, whose label is the line up to that token.

Results:
* `names_fresh`: the names that are read on the left of a line, however reading ends.
* `IsLineCursor.said`: through its cursor a line says what it says by itself, up to where it is broken.
* `reading_opens_iff`: a line is read to the token behind its declaration exactly if it opens with one.
* **`declaration_isSome_iff`**: the lines that make a formula.
* `label_beginning`: the label of the formula is a beginning of the line, and all of it if the line is accepted.
-/

namespace EvalOrder

open Grammar

namespace Lexed

/-! ## The names on the left -/

/-- **The names that are read on the left are fresh**, and none stands twice, however reading ends. -/
theorem names_fresh : ∀ (s : Lexed) (defined : List String),
    (names defined s).mentioned.Nodup ∧ ∀ n ∈ (names defined s).mentioned, n ∉ defined
  | broken e, defined => by simp [names, Stretch.failing]
  | done t, defined => by simp [names, Stretch.failing]
  | token t rest, defined => by
    unfold names
    split
    · simp [Stretch.failing]
    · split
      · simp [Stretch.failing]
      · rename_i _ hnew
        cases rest with
        | broken e => simpa [Stretch.mention, Stretch.failing] using hnew
        | done e => simpa [Stretch.mention, Stretch.ending] using hnew
        | token comma more =>
          by_cases hc : comma.tag = .comma
          · obtain ⟨hnodup, hfresh⟩ := names_fresh more (t.text :: defined)
            simp only [hc, if_true, Stretch.mention]
            refine ⟨List.nodup_cons.mpr ⟨fun hm => hfresh _ hm List.mem_cons_self, hnodup⟩, ?_⟩
            refine List.forall_mem_cons.mpr ⟨hnew, fun n hn hd => ?_⟩
            exact hfresh n hn (List.mem_cons_of_mem _ hd)
          · simpa [hc, Stretch.mention, Stretch.ending] using hnew

/-! ## Tokens without their places -/

/-- What the tokens say without their places, and that the last is broken if it is. -/
def said : Lexed → List (Option Word)
  | token t rest => some t.word :: rest.said
  | done t => [some t.word]
  | broken _ => [none]

theorem said_prepend (ts : List Token) (s : Lexed) :
    (prepend ts s).said = (ts.map Token.word).map some ++ s.said := by
  induction ts with
  | nil => rfl
  | cons t ts ih => rw [prepend_cons, said, ih, List.map_cons, List.map_cons, List.cons_append]

/-- Words before another word are those of tokens before others. -/
theorem exists_prepend_of_said : ∀ {us : List Word} {w : Word} {more : List (Option Word)} {s : Lexed},
    s.said = us.map some ++ some w :: more →
      ∃ ts rest, s = prepend ts rest ∧ ts.map Token.word = us ∧ rest.said = some w :: more
  | [], _, _, s, h => ⟨[], s, rfl, rfl, h⟩
  | u :: us, w, more, token t rest, h => by
    obtain ⟨ht, hrest⟩ := List.cons.inj h
    obtain ⟨ts, rest, rfl, rfl, hsaid⟩ := exists_prepend_of_said hrest
    exact ⟨t :: ts, rest, rfl, by rw [List.map_cons, Option.some.inj ht], hsaid⟩
  | _ :: _, _, _, done t, h => by simp [said] at h
  | _ :: _, _, _, broken e, h => by simp [said] at h

/-- A right-hand side ends before a word that joins neither operands nor expressions. -/
theorem ends_iff {s : Lexed} (h : s.Proper) :
    s.Ends ↔ ∃ w more, s.said = some w :: more ∧ w.tag ∉ [Tag.comma, .sumSign, .mulSign] := by
  cases s with
  | token t rest => simp [Ends, Stops, said]
  | done t =>
    have htag : t.tag = .endOfText := h
    simp [Ends, Stops, said, htag]
  | broken e => simp [Ends, Stops, said]

theorem Ends.exists_head {s : Lexed} (h : s.Ends) : ∃ t, s.head = .ok t := by
  cases s with
  | token t rest => exact ⟨t, rfl⟩
  | done t => exact ⟨t, rfl⟩
  | broken e => exact absurd h id

end Lexed

theorem said_ofCursor {c : Cursor} (h : c.Bounded) :
    (Lexed.ofCursor c).said = (outline c.window).map Except.toOption := by
  refine ofCursor_induction (P := fun c s => s.said = (outline c.window).map Except.toOption)
    (fun c cause _ hk => ?_) (fun c _ hk => ?_) (fun c tag _ hk ht ih => ?_) c h
  · rw [outline_of_error hk]
    rfl
  · rw [outline_of_endOfText hk]
    simp [Lexed.said, Token.word, Token.text, Cursor.take_eq, Except.toOption]
  · rw [outline_of_ok hk ht, Lexed.said, ih, Lexeme.window_follow]
    simp [Token.word, text_tokenAt, Except.toOption]

/-- Through its cursor a line says what it says by itself, up to where it is broken. -/
theorem IsLineCursor.said {c : Cursor} {line : String} (h : IsLineCursor c line) :
    (Lexed.ofCursor c).said = (lexed line).said := by
  rw [said_ofCursor h.bounded, h.window, outline_append_lineFeed, lexed,
    said_ofCursor (Cursor.ofString_bounded line), Cursor.ofString_window]

/-! ## Lines that open with a declaration -/

/-- The line opens with a declaration of `names` by `sums`: they stand at its beginning, and behind them a token that
continues neither the last expression nor their list. What is behind that token does not matter. -/
def Opens (line : String) (names : List String) (sums : List (List Word)) : Prop :=
  ∃ l e r next more, (lexed line).said = (l ++ e :: r).map some ++ some next :: more ∧ IsNames l names ∧
    e.tag = .equalSign ∧ IsExpressions r sums ∧ next.tag ∉ [Tag.comma, .sumSign, .mulSign]

/-- The line makes a formula behind lines that define `defined`: it opens with a declaration of as many names as
expressions, its names are fresh, and it calls none of them. -/
def Admits (defined : List String) (line : String) : Prop :=
  ∃ names sums, Opens line names sums ∧ names.length = sums.length ∧ names.Nodup ∧ (∀ x ∈ names, x ∉ defined) ∧
    ∀ x ∈ (sums.map idents).flatten, x ∉ names

namespace Session

variable {s : Session} {c : Cursor} {line : String}

/-- **How far a line is read**: to the token behind its declaration if it opens with one, whose names are fresh. -/
theorem reading_opens_iff (s : Session) (hc : IsLineCursor c line) {ns : List String}
    {groups : List (List String)} :
    (∃ finish, s.reading c = ⟨ns, groups, .ok finish⟩) ↔
      ns.Nodup ∧ (∀ n ∈ ns, n ∉ s.defined) ∧ ∃ sums, Opens line ns sums ∧ groups = sums.map idents := by
  have hproper := proper_ofCursor hc.bounded
  constructor
  · rintro ⟨finish, hread⟩
    obtain ⟨l, e, r, sums, rest, hs, hnames, hnodup, hfresh, he, hexp, rfl, hend, -⟩ :=
      Reading.ofLexed_eq_ok_iff.mp hread
    rw [hs] at hproper
    obtain ⟨w, more, hsaid, hw⟩ := (Lexed.ends_iff hproper.of_prepend.2.of_prepend).mp hend
    refine ⟨hnodup, hfresh, sums, ⟨_, e.word, _, w, more, ?_, hnames, he, hexp, hw⟩, rfl⟩
    rw [← hc.said, hs, Lexed.said_prepend, Lexed.said, Lexed.said_prepend, hsaid]
    simp
  · rintro ⟨hnodup, hfresh, sums, ⟨l, e, r, next, more, hsaid, hnames, he, hexp, hnext⟩, rfl⟩
    rw [← hc.said] at hsaid
    obtain ⟨ts, rest, hs, hts, hrest⟩ := Lexed.exists_prepend_of_said hsaid
    obtain ⟨ls, es, rfl, rfl, hes⟩ := List.map_eq_append_iff.mp hts
    obtain ⟨e, rs, rfl, rfl, rfl⟩ := List.map_eq_cons_iff.mp hes
    rw [hs] at hproper
    have hend : rest.Ends := (Lexed.ends_iff hproper.of_prepend).mpr ⟨next, more, hrest, hnext⟩
    obtain ⟨finish, hfinish⟩ := hend.exists_head
    rw [Lexed.prepend_append, Lexed.prepend_cons] at hs
    exact ⟨finish, Reading.ofLexed_eq_ok_iff.mpr
      ⟨ls, e, rs, sums, rest, hs, hnames, hnodup, hfresh, he, hexp, rfl, hend, hfinish⟩⟩

theorem names_reading (s : Session) (c : Cursor) :
    (s.reading c).names = ((Lexed.ofCursor c).names s.defined).mentioned := by
  rw [reading, Reading.ofLexed]
  split
  · rfl
  · split
    · rfl
    · rfl
    · split <;> rfl

/-- What is read on the left of a line is fresh. -/
theorem names_reading_fresh (s : Session) (c : Cursor) :
    (s.reading c).names.Nodup ∧ ∀ n ∈ (s.reading c).names, n ∉ s.defined := by
  rw [names_reading]
  exact Lexed.names_fresh _ _

/-- A line makes a formula if it is read to the token behind its declaration, has as many names as expressions, and
calls none of them. -/
theorem declaration_isSome_iff_reading (hs : s.graph.WellFormed) (c : Cursor) :
    (s.enter c).declaration.isSome ↔
      (∃ finish, (s.reading c).outcome = .ok finish) ∧
        (s.reading c).names.length = (s.reading c).expressions.length ∧
        ∀ x ∈ (s.reading c).expressions.flatten, x ∉ (s.reading c).names := by
  have hapart := callPairs_apart_iff (c := c) hs.named
  have hway := way_enter hs.named c
  rw [← length_declaring hs.named, ← length_calling hs.named]
  generalize s.enter c = entry at hway ⊢
  cases hway with
  | noToken hhead =>
    rw [s.reading_of_head_error hhead]
    simp
  | unread _ hout => simp [hout]
  | unmatched _ _ hlen => simp [hlen]
  | @circular first finish pre post a b v w _ _ hlen hpairs _ hb _ _ =>
    refine iff_of_false (fun h => by cases h) ?_
    rintro ⟨_, _, hnames⟩
    exact (hapart hlen).mpr hnames (a, b) (by simp [hpairs]) hb
  | @formula first finish _ hout hlen hnames =>
    exact iff_of_true rfl ⟨⟨finish, hout⟩, hlen, (hapart hlen).mp hnames⟩

/-- **The lines that make a formula.** -/
theorem declaration_isSome_iff (hs : s.graph.WellFormed) (hc : IsLineCursor c line) :
    (s.enter c).declaration.isSome ↔ Admits s.defined line := by
  rw [declaration_isSome_iff_reading hs]
  constructor
  · rintro ⟨⟨finish, hout⟩, hlen, hapart⟩
    obtain ⟨hnodup, hfresh, sums, hopens, hgroups⟩ := (s.reading_opens_iff hc).mp
      ⟨finish, (by rw [← hout] : s.reading c = ⟨(s.reading c).names, (s.reading c).expressions, _⟩)⟩
    rw [hgroups] at hlen hapart
    exact ⟨_, sums, hopens, by rw [hlen, List.length_map], hnodup, hfresh, hapart⟩
  · rintro ⟨names, sums, hopens, hlen, hnodup, hfresh, hapart⟩
    obtain ⟨finish, hread⟩ := (s.reading_opens_iff hc).mpr ⟨hnodup, hfresh, sums, hopens, rfl⟩
    rw [hread]
    exact ⟨⟨finish, rfl⟩, by rw [hlen, List.length_map], hapart⟩

end Session

/-! ## Labels -/

/-- A token that is not the end of the text starts with a character that is no blank. -/
theorem start_of_mem_tokens {c : Cursor} (h : c.Bounded) {t : Token} (ht : t ∈ (Lexed.ofCursor c).tokens)
    (htag : t.tag ≠ .endOfText) :
    ∃ pre ch cs, c.window = pre ++ ch :: cs ∧ Text.isBlank ch = false ∧ t.start = c.past pre := by
  revert t
  refine ofCursor_induction
    (P := fun c s => ∀ {t : Token}, t ∈ s.tokens → t.tag ≠ .endOfText → ∃ pre ch cs, c.window = pre ++ ch :: cs ∧
      Text.isBlank ch = false ∧ t.start = c.past pre)
    (fun c cause _ _ t ht _ => ?_) (fun c _ _ t ht htag => ?_) (fun c tag _ hk hne ih t ht htag => ?_) c h
  · exact absurd ht List.not_mem_nil
  · obtain rfl := List.mem_singleton.mp ht
    exact absurd rfl htag
  · rcases List.mem_cons.mp ht with rfl | ht
    · cases hdrop : c.window.dropWhile Text.isBlank with
      | nil => simp [lexeme, hdrop, hne.symm] at hk
      | cons ch cs =>
        refine ⟨c.window.takeWhile Text.isBlank, ch, cs, ?_, ?_, ?_⟩
        · rw [← hdrop, List.takeWhile_append_dropWhile]
        · simpa [hdrop] using List.head?_dropWhile_not Text.isBlank c.window
        · rw [← lexeme_blank]
          rfl
    · obtain ⟨pre, ch, cs, hwindow, hch, hstart⟩ := ih ht htag
      rw [Lexeme.window_follow] at hwindow
      refine ⟨(lexeme c.window).blank ++ ((lexeme c.window).body ++ pre), ch, cs, ?_, hch, ?_⟩
      · conv_lhs => rw [← lexeme_parts c.window, hwindow]
        simp
      · rw [hstart, Lexeme.follow, Lexeme.start, ← Cursor.past_append, ← Cursor.past_append]

/-- From the first token of a line up to a later one. -/
theorem labelOf_beginning {c : Cursor} {line : String} (h : IsLineCursor c line) {first finish : Token}
    (hfirst : (Lexed.ofCursor c).head = .ok first) (hfinish : finish ∈ (Lexed.ofCursor c).tokens)
    (htag : finish.tag ≠ .endOfText) :
    ∃ rest, rest ≠ [] ∧ (unindented line).toList = (Session.labelOf first finish).toList ++ rest := by
  obtain ⟨pre, ch, cs, hwindow, hch, hstart⟩ := start_of_mem_tokens h.bounded hfinish htag
  have hdrop : ∀ cs' : List Char, (pre ++ ch :: cs').dropWhile Text.isBlank =
      pre.dropWhile Text.isBlank ++ ch :: cs' := by
    intro cs'
    rw [List.dropWhile_append]
    split
    · rename_i he
      rw [List.isEmpty_iff.mp he, List.dropWhile_cons_of_neg (by simp [hch]), List.nil_append]
    · rfl
  -- the line feed is a blank, so the later token starts in the line
  obtain ⟨cs', hline⟩ : ∃ cs', line.toList = pre ++ ch :: cs' := by
    rw [h.window] at hwindow
    rcases List.append_eq_append_iff.mp hwindow with ⟨a, hpre, ha⟩ | ⟨a, hline, ha⟩
    · cases a with
      | nil =>
        rw [List.nil_append] at ha
        obtain ⟨rfl, -⟩ := List.cons.inj ha
        exact absurd hch (by decide)
      | cons x a => simp at ha
    · cases a with
      | nil =>
        rw [List.nil_append] at ha
        obtain ⟨rfl, -⟩ := List.cons.inj ha
        exact absurd hch (by decide)
      | cons x a =>
        obtain ⟨rfl, -⟩ := List.cons.inj ha
        exact ⟨a, hline⟩
  have hlength : finish.start.index - first.start.index = (pre.dropWhile Text.isBlank).length := by
    have hparts := congrArg List.length (List.takeWhile_append_dropWhile (p := Text.isBlank) (l := c.window))
    rw [hwindow, hdrop] at hparts
    rw [hstart, start_of_head h.bounded hfirst, Cursor.past_index, Cursor.past_index, hwindow]
    simp only [List.length_append] at hparts
    omega
  have hfilter : (pre.dropWhile Text.isBlank).filter (· ≠ '\n') = pre.dropWhile Text.isBlank := by
    refine List.filter_eq_self.mpr fun x hx => ?_
    have hmem : x ∈ line.toList := hline ▸ List.mem_append_left _ ((List.dropWhile_sublist _).mem hx)
    simpa using fun he : x = '\n' => h.noLineFeed (he ▸ hmem)
  refine ⟨ch :: cs', List.cons_ne_nil _ _, ?_⟩
  rw [unindented, String.toList_ofList, hline, hdrop, Session.labelOf, Cursor.take_eq, hlength,
    start_of_head h.bounded hfirst, Cursor.window_past_takeWhile, hwindow, hdrop, List.take_left,
    String.toList_ofList, String.toList_ofList, hfilter]

namespace Session

variable {s : Session} {c : Cursor} {line : String}

/-- **The label of a formula is a beginning of the line**, and all of it just if the line is accepted. -/
theorem label_beginning (hs : s.graph.WellFormed) (hc : IsLineCursor c line) {d : Declaration}
    (h : (s.enter c).declaration = some d) :
    ∃ rest, (unindented line).toList = d.label.toList ++ rest ∧ ((s.enter c).outcome = .ok () ↔ rest = []) := by
  have hproper := proper_ofCursor hc.bounded
  have hway := way_enter hs.named c
  generalize s.enter c = entry at hway h ⊢
  cases hway with
  | noToken _ => cases h
  | unread _ _ => cases h
  | unmatched _ _ _ => cases h
  | circular _ _ _ _ _ _ _ _ => cases h
  | @formula first finish hhead hout _ _ =>
    obtain rfl := Option.some.inj h
    have hread : Reading.ofLexed s.defined (.ofCursor c) =
        ⟨(s.reading c).names, (s.reading c).expressions, .ok finish⟩ := by
      rw [← hout]
      rfl
    by_cases htag : finish.tag = .endOfText
    · have hend := ((Reading.ofLexed_endOfText_iff hproper).mp ⟨hread, htag⟩).2.1
      refine ⟨[], ?_, by simp [htag]⟩
      rw [labelOf_eq hc hhead hend, List.append_nil]
    · obtain ⟨after, hne, hlabel⟩ := labelOf_beginning hc hhead (Reading.mem_tokens_of_outcome hout) htag
      exact ⟨after, hlabel, by simp [htag, hne]⟩

end Session

end EvalOrder
