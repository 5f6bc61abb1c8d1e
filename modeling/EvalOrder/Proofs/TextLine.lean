import EvalOrder.Proofs.Reading
import EvalOrder.Session
import Mathlib.Data.String.Basic

/-!
# Lines by themselves

A line is read through a cursor into the whole text, but what it says depends on its characters alone. So
its names are functions of the line as a string: `declaredNames` are the identifiers before the first equals
sign, `calledNames` those after it. `unindented` is the line without the blanks in front.

Results:
* `lines_terminated`: the lines of a text are what the line feeds separate.
* `window_lineCursors`: each line's cursor sees that line.
* `IsLineCursor.words`, `IsLineCursor.failure?`: through it the line says what it says by itself.
* `labelOf_eq`: the label of a line is the line unindented.
* `words_unindented`: which says the same.
-/

namespace EvalOrder

open Grammar

/-- The lines of a text: what its line feeds separate, the one that ends the text apart. -/
def textLines (text : String) : List String :=
  ((terminated text.toList).dropLast.splitOn '\n').map String.ofList

/-- A line by itself as tokens. -/
def lexed (line : String) : Lexed := .ofCursor (.ofString line)

/-- The identifiers before the first equals sign of a line. -/
def declaredNames (line : String) : List String :=
  idents ((lexed line).words.takeWhile fun w => w.tag ≠ .equalSign)

/-- The identifiers after the first equals sign of a line. -/
def calledNames (line : String) : List String :=
  idents ((lexed line).words.dropWhile fun w => w.tag ≠ .equalSign)

/-- A line without the blanks in front. -/
def unindented (line : String) : String := String.ofList (line.toList.dropWhile Text.isBlank)

/-- The line is lexed without a failure, into a word of the grammar: it declares `names` by `sums`. -/
structure Declares (line : String) (names : List String) (sums : List (List Word)) : Prop where
  lexes : (lexed line).failure? = none
  derives : IsDeclLine (lexed line).words names sums

/-- The cursor sees the line and its line feed. -/
structure IsLineCursor (c : Cursor) (line : String) : Prop where
  bounded : c.Bounded
  window : c.window = line.toList ++ ['\n']
  noLineFeed : '\n' ∉ line.toList

/-! ## The lines of a text -/

theorem terminated_eq (cs : List Char) : terminated cs = (terminated cs).dropLast ++ ['\n'] := by
  unfold terminated
  split
  · rename_i h
    exact (List.dropLast_append_getLast? _ h).symm
  · rw [List.dropLast_concat]

theorem lines_append_lineFeed (cs : List Char) :
    lines (cs ++ ['\n']) = (cs.splitOn '\n').map (· ++ ['\n']) := by
  induction cs with
  | nil => rfl
  | cons c cs ih =>
    rw [List.cons_append, lines, List.splitOn_cons_eq_if_modifyHead, ih]
    by_cases hc : c = '\n'
    · subst hc
      simp
    · obtain ⟨l, ls, hsplit⟩ := List.exists_cons_of_ne_nil (List.splitOn_ne_nil '\n' cs)
      simp [hc, hsplit]

theorem lineFeed_not_mem_of_mem_splitOn {cs l : List Char} (h : l ∈ cs.splitOn '\n') : '\n' ∉ l := by
  induction cs generalizing l with
  | nil =>
    rw [List.splitOn_nil, List.mem_singleton] at h
    simp [h]
  | cons c cs ih =>
    rw [List.splitOn_cons_eq_if_modifyHead] at h
    by_cases hc : c = '\n'
    · subst hc
      rw [if_pos (by simp), List.mem_cons] at h
      rcases h with rfl | h
      · simp
      · exact ih h
    · obtain ⟨m, ms, hsplit⟩ := List.exists_cons_of_ne_nil (List.splitOn_ne_nil '\n' cs)
      rw [if_neg (by simpa using hc), hsplit, List.modifyHead_cons, List.mem_cons] at h
      rcases h with rfl | h
      · refine List.not_mem_cons_of_ne_of_not_mem (Ne.symm hc) (ih ?_)
        rw [hsplit]
        exact List.mem_cons_self
      · refine ih ?_
        rw [hsplit]
        exact List.mem_cons_of_mem _ h

/-- The lines of a terminated text, each with its line feed. -/
theorem lines_terminated (text : String) :
    lines (terminated text.toList) = (textLines text).map fun l => l.toList ++ ['\n'] := by
  rw [terminated_eq, lines_append_lineFeed, textLines, List.map_map]
  simp [Function.comp_def]

theorem lineFeed_not_mem_of_mem_textLines {text line : String} (h : line ∈ textLines text) :
    '\n' ∉ line.toList := by
  obtain ⟨l, hl, rfl⟩ := List.mem_map.mp h
  rw [String.toList_ofList]
  exact lineFeed_not_mem_of_mem_splitOn hl

theorem textLines_ne_nil (text : String) : textLines text ≠ [] := by
  simp [textLines, List.splitOn_ne_nil]

/-- Lines that are printed are the lines of what is printed. -/
theorem textLines_join {ls : List String} (hne : ls ≠ []) (hfeed : ∀ l ∈ ls, '\n' ∉ l.toList) :
    textLines (String.join (ls.map (· ++ "\n"))) = ls := by
  have hflat : ((ls.map (· ++ "\n")).map String.toList).flatten =
      ['\n'].intercalate (ls.map String.toList) ++ ['\n'] := by
    clear hfeed
    induction ls with
    | nil => exact absurd rfl hne
    | cons l ls ih =>
      cases ls with
      | nil => simp
      | cons l' ls =>
        have hrest := ih (List.cons_ne_nil _ _)
        simp only [List.map_cons, List.flatten_cons, String.toList_append] at hrest ⊢
        rw [hrest]
        simp
  have hterminated : ∀ cs : List Char, terminated (cs ++ ['\n']) = cs ++ ['\n'] := by
    intro cs
    simp [terminated]
  have hmem : ∀ l ∈ ls.map String.toList, '\n' ∉ l := by simpa using hfeed
  rw [textLines, String.join_eq, String.toList_ofList, hflat, hterminated, List.dropLast_concat,
    List.splitOn_intercalate '\n' hmem (by simpa using hne), List.map_map]
  simp [Function.comp_def]

theorem window_cursorsAt (text : Array Char) :
    ∀ (ls : List (List Char)) (done rest : List Char) (row : Nat),
      text.toList = done ++ (ls.flatten ++ rest) →
        (cursorsAt text done.length row ls).map Cursor.window = ls
  | [], _, _, _, _ => rfl
  | l :: ls, done, rest, row, h => by
    have hnext := window_cursorsAt text ls (done ++ l) rest (row + 1) (by simpa using h)
    rw [List.length_append] at hnext
    rw [cursorsAt, List.map_cons, hnext, Cursor.window_eq]
    simp [Cursor.limit, h, List.take_append]

/-- Each line's cursor sees that line. -/
theorem window_lineCursors (cs : List Char) : (lineCursors cs).map Cursor.window = lines cs :=
  window_cursorsAt _ _ [] [] 1 (by simp [flatten_lines])

/-- The cursors of a text are those of its lines, in order. -/
theorem isLineCursor_lineCursors (text : String) :
    List.Forall₂ IsLineCursor (lineCursors (terminated text.toList)) (textLines text) := by
  have hwindow := window_lineCursors (terminated text.toList)
  rw [lines_terminated] at hwindow
  have hbounded : ∀ c ∈ lineCursors (terminated text.toList), c.Bounded := fun c hc =>
    bounded_of_mem_lineCursors hc
  have hfeed : ∀ l ∈ textLines text, '\n' ∉ l.toList := fun l hl => lineFeed_not_mem_of_mem_textLines hl
  generalize lineCursors (terminated text.toList) = cursors at hwindow hbounded
  generalize textLines text = ls at hwindow hfeed
  induction cursors generalizing ls with
  | nil =>
    cases ls with
    | nil => exact .nil
    | cons l ls => cases hwindow
  | cons c cursors ih =>
    cases ls with
    | nil => cases hwindow
    | cons l ls =>
      obtain ⟨hc, hrest⟩ := List.cons.inj hwindow
      obtain ⟨hb, hbs⟩ := List.forall_mem_cons.mp hbounded
      obtain ⟨hl, hls⟩ := List.forall_mem_cons.mp hfeed
      exact .cons ⟨hb, hc, hl⟩ (ih hbs ls hrest hls)

theorem exists_before_of_mem_cursorsAt {text : Array Char} {c : Cursor} {ls : List (List Char)} {done rest : List Char}
    {row : Nat} (htext : text.toList = done ++ (ls.flatten ++ rest))
    (hlines : ∀ l ∈ ls, ∃ l', l = l' ++ ['\n'] ∧ '\n' ∉ l')
    (hdone : Place.afterAll {} done = ⟨done.length, row, 1⟩) (hc : c ∈ cursorsAt text done.length row ls) :
    ∃ before, c.toPlace = Place.afterAll {} before ∧ before ++ c.window <+: text.toList := by
  induction ls generalizing done row with
  | nil => cases hc
  | cons l ls ih =>
    rcases List.mem_cons.mp hc with rfl | hc
    · refine ⟨done, hdone.symm, ls.flatten ++ rest, ?_⟩
      simp [Cursor.window_eq, Cursor.limit, htext, List.take_append]
    · obtain ⟨⟨l', rfl, hl'⟩, hls⟩ := List.forall_mem_cons.mp hlines
      refine @ih (done ++ (l' ++ ['\n'])) _ (by simpa using htext) hls ?_ (by simpa using hc)
      have hfeeds : l'.count '\n' = 0 := List.count_eq_zero.mpr hl'
      rw [Place.afterAll_append, Place.afterAll_append, hdone, Place.afterAll_cons, Place.afterAll_nil, Place.after,
        if_pos rfl, Place.afterAll_index, Place.afterAll_row, hfeeds, List.length_append, List.length_append]
      rfl

/-- A line begins at the place behind all that stands before it. -/
theorem exists_before {text : String} {c : Cursor} (hc : c ∈ lineCursors (terminated text.toList)) :
    ∃ before, c.toPlace = Place.afterAll {} before ∧ before ++ c.window <+: terminated text.toList := by
  have hlines : ∀ l ∈ lines (terminated text.toList), ∃ l', l = l' ++ ['\n'] ∧ '\n' ∉ l' := by
    intro l hl
    rw [lines_terminated] at hl
    obtain ⟨line, hline, rfl⟩ := List.mem_map.mp hl
    exact ⟨line.toList, rfl, lineFeed_not_mem_of_mem_textLines hline⟩
  have htext : (terminated text.toList).toArray.toList = [] ++ ((lines (terminated text.toList)).flatten ++ []) := by
    rw [flatten_lines, List.append_nil, List.nil_append]
  exact exists_before_of_mem_cursorsAt htext hlines rfl hc

/-- The bound of the last line is the end of the text. -/
theorem limit_of_getLast?_cursorsAt {text : Array Char} {c : Cursor} :
    ∀ {ls : List (List Char)} {start row : Nat}, (cursorsAt text start row ls).getLast? = some c →
      c.limit = start + ls.flatten.length
  | [], _, _, h => by cases h
  | [l], start, row, h => by
    obtain rfl : _ = c := by simpa [cursorsAt] using h
    simp [Cursor.limit]
  | l :: l' :: ls, start, row, h => by
    rw [cursorsAt, cursorsAt, List.getLast?_cons_cons, ← cursorsAt] at h
    rw [limit_of_getLast?_cursorsAt h, List.flatten_cons (l := l), List.length_append, Nat.add_assoc]

/-- So the window of the last line ends where the text does. -/
theorem past_window_of_getLast? {text : String} {c : Cursor}
    (h : (lineCursors (terminated text.toList)).getLast? = some c) :
    (c.past c.window).toPlace = Place.afterAll {} (terminated text.toList) := by
  have hc : c ∈ lineCursors (terminated text.toList) := List.mem_of_getLast? h
  obtain ⟨before, hplace, hbefore⟩ := exists_before hc
  have hlimit : c.limit = (terminated text.toList).length := by
    rw [limit_of_getLast?_cursorsAt h, flatten_lines, Nat.zero_add]
  have htext : c.text = (terminated text.toList).toArray := (stop_le_of_mem_cursorsAt hc).1
  have hindex : before.length = c.index := by
    rw [hplace, Place.afterAll_index]
    exact (Nat.zero_add _).symm
  have hwhole : before ++ c.window = terminated text.toList := by
    refine hbefore.eq_of_length_le ?_
    rw [List.length_append, Cursor.window_eq, htext, List.length_drop, hlimit, List.take_length]
    omega
  rw [← hwhole, Place.afterAll_append, ← hplace]
  rfl

/-! ## What a line says -/

theorem words_lexed (line : String) :
    (lexed line).words = (outline line.toList).filterMap Except.toOption := by
  rw [lexed, words_ofCursor (Cursor.ofString_bounded line), Cursor.ofString_window]

theorem failure?_lexed (line : String) :
    (lexed line).failure? = none ↔ ∀ w ∈ outline line.toList, w.isOk = true := by
  rw [lexed, failure?_ofCursor (Cursor.ofString_bounded line), Cursor.ofString_window]

namespace IsLineCursor

variable {c : Cursor} {line : String}

/-- Through its cursor a line says what it says by itself. -/
theorem words (h : IsLineCursor c line) : (Lexed.ofCursor c).words = (lexed line).words := by
  rw [words_ofCursor h.bounded, h.window, outline_append_lineFeed, words_lexed]

theorem failure? (h : IsLineCursor c line) :
    (Lexed.ofCursor c).failure? = none ↔ (lexed line).failure? = none := by
  rw [failure?_ofCursor h.bounded, h.window, outline_append_lineFeed, failure?_lexed]

end IsLineCursor

/-- The first token starts behind the blanks of the window. -/
theorem start_of_head {c : Cursor} (h : c.Bounded) {t : Token} (ht : (Lexed.ofCursor c).head = .ok t) :
    t.start = c.past (c.window.takeWhile Text.isBlank) := by
  revert t
  refine ofCursor_induction
    (P := fun c s => ∀ {t : Token}, s.head = .ok t → t.start = c.past (c.window.takeWhile Text.isBlank))
    (fun c cause _ _ t ht => ?_) (fun c _ hk t ht => ?_) (fun c tag _ _ _ _ t ht => ?_) c h
  · cases ht
  · obtain rfl := Except.ok.inj ht
    rw [← lexeme_blank, lexeme_of_endOfText hk]
  · obtain rfl := Except.ok.inj ht
    rw [← lexeme_blank]
    rfl

/-- **The label of a line is the line unindented.** -/
theorem labelOf_eq {c : Cursor} {line : String} (h : IsLineCursor c line) {first finish : Token}
    (hfirst : (Lexed.ofCursor c).head = .ok first) (hfinish : (Lexed.ofCursor c).end? = some finish) :
    Session.labelOf first finish = unindented line := by
  have hwindow : first.start.window = c.window.dropWhile Text.isBlank := by
    rw [start_of_head h.bounded hfirst, Cursor.window_past_takeWhile]
  have hlength : finish.start.index - first.start.index = (c.window.dropWhile Text.isBlank).length := by
    have hparts := congrArg List.length
      (List.takeWhile_append_dropWhile (p := Text.isBlank) (l := c.window))
    rw [List.length_append] at hparts
    rw [start_of_end? h.bounded hfinish, start_of_head h.bounded hfirst, Cursor.past_index,
      Cursor.past_index]
    omega
  have hfilter : (line.toList.dropWhile Text.isBlank).filter (· ≠ '\n') =
      line.toList.dropWhile Text.isBlank := by
    refine List.filter_eq_self.mpr ?_
    intro ch hch
    have hmem := (List.dropWhile_sublist Text.isBlank).mem hch
    simpa using fun he : ch = '\n' => h.noLineFeed (he ▸ hmem)
  rw [Session.labelOf, unindented, Cursor.take_eq, hwindow, hlength, List.take_length,
    String.toList_ofList, h.window, List.dropWhile_append]
  split
  · rename_i he
    rw [List.isEmpty_iff.mp he]
    rfl
  · rw [List.filter_append, hfilter]
    simp

/-! ## Equals signs -/

theorem eq_of_ofChar?_equalSign {ch : Char} (h : Tag.ofChar? ch = some .equalSign) : ch = '=' := by
  unfold Tag.ofChar? at h
  split at h <;> simp_all

/-- A token that is an equals sign is not a word or a number. -/
theorem eq_of_kind_equalSign {blank : List Char} {ch : Char} {more : List Char}
    (h : (Lexeme.ofChar blank ch more).kind = .ok .equalSign) : ch = '=' := by
  unfold Lexeme.ofChar at h
  split at h
  · rename_i tag ht
    exact eq_of_ofChar?_equalSign (by rw [ht, Except.ok.inj h])
  · split at h
    · cases h
    · split at h
      · simp only at h
        split at h <;> cases h
      · cases h

theorem mem_of_lexeme_equalSign {cs : List Char} (h : (lexeme cs).kind = .ok .equalSign) : '=' ∈ cs := by
  unfold lexeme at h
  split at h
  · cases h
  · rename_i ch more hdrop
    obtain rfl := eq_of_kind_equalSign h
    have hmem : '=' ∈ cs.dropWhile Text.isBlank := by
      rw [hdrop]
      exact List.mem_cons_self
    exact (List.dropWhile_sublist _).mem hmem

/-- An equals sign is written as one. -/
theorem mem_of_equalSign {cs : List Char} {w : Word} (h : .ok w ∈ outline cs) (hw : w.tag = .equalSign) :
    '=' ∈ cs := by
  -- a token leaves fewer characters than it was taken from
  generalize hn : cs.length = n
  induction n using Nat.strongRecOn generalizing cs with
  | _ n ih =>
    cases hk : (lexeme cs).kind with
    | error cause =>
      rw [outline_of_error hk] at h
      simp at h
    | ok tag =>
      by_cases hend : tag = .endOfText
      · subst hend
        rw [outline_of_endOfText hk, List.mem_singleton] at h
        obtain rfl := Except.ok.inj h
        cases hw
      · rw [outline_of_ok hk hend, List.mem_cons] at h
        rcases h with h | h
        · obtain rfl := Except.ok.inj h
          obtain rfl : tag = .equalSign := hw
          exact mem_of_lexeme_equalSign hk
        · have hlt : (lexeme cs).rest.length < cs.length := length_rest_lt (by rw [hk]; simpa using hend)
          have hmem := ih _ (hn ▸ hlt) h rfl
          rw [← lexeme_parts cs]
          exact List.mem_append_right _ (List.mem_append_right _ hmem)

/-! ## Unindented lines -/

theorem words_unindented (line : String) : (lexed (unindented line)).words = (lexed line).words := by
  rw [words_lexed, words_lexed, unindented, String.toList_ofList, outline_dropWhile]

@[simp] theorem declaredNames_unindented (line : String) :
    declaredNames (unindented line) = declaredNames line := by
  rw [declaredNames, declaredNames, words_unindented]

@[simp] theorem calledNames_unindented (line : String) :
    calledNames (unindented line) = calledNames line := by
  rw [calledNames, calledNames, words_unindented]

/-! ## The names of a declaration -/

/-- A name, an equals sign and a word make the shortest declaration. -/
theorem declares_of_outline {line name : String} {w : Word}
    (h : outline line.toList = [.ok ⟨.ident, name⟩, .ok ⟨.equalSign, "="⟩, .ok w, .ok ⟨.endOfText, ""⟩])
    (hw : w.tag = .ident ∨ w.tag = .number) : Declares line [name] [[w]] := by
  have hvar : IsSum [w] := by
    refine .mul (.var ?_)
    rcases hw with hw | hw
    · exact .ident hw
    · exact .number hw
  constructor
  · rw [failure?_lexed, h]
    simp [Except.isOk, Except.toBool]
  · rw [words_lexed, h]
    exact .line (l := [⟨.ident, name⟩]) (r := [w]) (.last rfl) rfl (.last hvar) rfl

theorem declares_a_b : Declares "a=b" ["a"] [[⟨.ident, "b"⟩]] := declares_of_outline (by cbv) (.inl rfl)

theorem declares_b_a : Declares "b=a" ["b"] [[⟨.ident, "a"⟩]] := declares_of_outline (by cbv) (.inl rfl)

theorem declares_a_1 : Declares "a=1" ["a"] [[⟨.number, "1"⟩]] := declares_of_outline (by cbv) (.inr rfl)

namespace Declares

variable {line : String} {names : List String} {sums : List (List Word)}

theorem idents_of_isExpressions {w : List Word} (h : IsExpressions w sums) :
    idents w = (sums.map idents).flatten := by
  induction h with
  | last _ => simp
  | more _ hc _ ih => rw [idents_append, idents_cons_of_ne (by simp [hc]), ih]; rfl

theorem declaredNames_eq (h : Declares line names sums) : declaredNames line = names := by
  obtain ⟨-, hline⟩ := h
  unfold declaredNames
  generalize (lexed line).words = ws at hline
  cases hline with
  | line hnames he _ _ =>
    rw [List.takeWhile_append_of_pos (by simpa using hnames.tag_ne_equalSign),
      List.takeWhile_cons_of_neg (by simp [he]), List.append_nil, hnames.idents_eq]

theorem calledNames_eq (h : Declares line names sums) : calledNames line = (sums.map idents).flatten := by
  obtain ⟨-, hline⟩ := h
  unfold calledNames
  generalize (lexed line).words = ws at hline
  cases hline with
  | line hnames he hexp ht =>
    rw [List.dropWhile_append_of_pos (by simpa using hnames.tag_ne_equalSign),
      List.dropWhile_cons_of_neg (by simp [he]), idents_cons_of_ne (by simp [he]), idents_append,
      idents_cons_of_ne (by simp [ht]), idents_nil, List.append_nil, idents_of_isExpressions hexp]

theorem names_ne_nil (h : Declares line names sums) : names ≠ [] := by
  obtain ⟨-, hline⟩ := h
  generalize (lexed line).words = ws at hline
  cases hline with
  | line hnames _ _ _ => exact hnames.ne_nil

/-- The names that each expression mentions are settled by the line. -/
theorem idents_unique (h : Declares line names sums) {names' : List String} {sums' : List (List Word)}
    (h' : Declares line names' sums') : sums.map idents = sums'.map idents := by
  obtain ⟨hlex, hline⟩ := h
  obtain ⟨-, hline'⟩ := h'
  obtain ⟨ts, t, hts⟩ := Lexed.eq_prepend_done hlex
  rw [hts, Lexed.words_prepend, Lexed.words_done] at hline hline'
  have hread : ∀ {names : List String} {sums : List (List Word)},
      IsDeclLine (ts.map Token.word ++ [t.word]) names sums →
        Lexed.expressions (Lexed.prepend ((ts.dropWhile fun t => t.tag ≠ .equalSign).tail) (.done t)) =
          (sums.map idents, .ok (.done t)) := by
    intro names sums hline
    generalize hws : ts.map Token.word ++ [t.word] = ws at hline
    cases hline with
    | @line l r e t' _ _ hnames he hexp ht' =>
      rw [← List.cons_append, ← List.append_assoc] at hws
      obtain ⟨hwords, -⟩ := List.append_inj' hws rfl
      obtain ⟨ls, rs', rfl, rfl, hrs⟩ := List.map_eq_append_iff.mp hwords
      obtain ⟨e, rs, rfl, rfl, rfl⟩ := List.map_eq_cons_iff.mp hrs
      have hnot : ∀ t ∈ ls, t.tag ≠ .equalSign := fun t ht =>
        hnames.tag_ne_equalSign _ (List.mem_map_of_mem ht)
      have he : e.tag = .equalSign := he
      rw [List.dropWhile_append_of_pos (by simpa using hnot), List.dropWhile_cons_of_neg (by simp [he]),
        List.tail_cons]
      exact Lexed.expressions_of_isExpressions hexp rfl trivial
  exact congrArg Prod.fst ((hread hline).symm.trans (hread hline'))

/-- So is how many expressions there are. -/
theorem length_unique (h : Declares line names sums) {names' : List String} {sums' : List (List Word)}
    (h' : Declares line names' sums') : sums.length = sums'.length := by
  simpa using congrArg List.length (h.idents_unique h')

/-- The line is written with an equals sign, behind the blanks in front. -/
theorem equalSign_mem (h : Declares line names sums) : '=' ∈ (unindented line).toList := by
  have hword : ∃ w ∈ (lexed (unindented line)).words, w.tag = .equalSign := by
    rw [words_unindented]
    obtain ⟨-, hline⟩ := h
    generalize (lexed line).words = ws at hline
    cases hline with
    | line _ he _ _ => exact ⟨_, by simp, he⟩
  obtain ⟨w, hw, htag⟩ := hword
  rw [words_lexed] at hw
  obtain ⟨r, hr, hok⟩ := List.mem_filterMap.mp hw
  cases r with
  | error cause => cases hok
  | ok w' =>
    obtain rfl := Option.some.inj hok
    exact mem_of_equalSign hr htag

end Declares

end EvalOrder
