import EvalOrder.Proofs.Intake

/-!
# Places in the whole text

Each line is read through a cursor of its own. It is put at the index and into the row of the line, at column 1, and
then counts by itself; where the rows of lines come from, nothing is counted but lines. Yet every place that a token
or a message names is the one that a reader finds who counts from the beginning of the text. For a cursor only passes
over characters that it sees, and its counts are then those of the characters passed over, wherever it was put; and
the place where a line begins is the one behind all that stands before it.

Results:
* `Passes.advance`, `Passes.skipWhile`, `Reaches.passes`: a cursor passes over a beginning of its window.
* `Passes.counted`: what it then counts.
* `passes_of_mem_tokens`, `passes_of_blames`: tokens and failures stand where a cursor has passed.
* `exists_before`: where lines begin.
* **`places_absolute`**: cursors, tokens and failures.
-/

namespace EvalOrder

/-! ## What a cursor passes over -/

namespace Cursor

/-- The second cursor is the first after a beginning of what it sees. -/
def Passes (c d : Cursor) : Prop := ∃ cs, cs <+: c.window ∧ d = c.past cs

/-- The second cursor comes of the first by steps and skips. -/
inductive Reaches (c : Cursor) : Cursor → Prop
  | refl : c.Reaches c
  | advance {d d' : Cursor} : c.Reaches d → d.advance = .ok d' → c.Reaches d'
  | skipWhile {d d' : Cursor} (p : Char → Bool) : c.Reaches d → d.skipWhile p = .ok d' → c.Reaches d'

/-- The characters from the cursor up to an index. -/
def upTo (c : Cursor) (index : Nat) : List Char := (c.text.extract c.index index).toList

/-- The second cursor is where one comes to who counts on from the first: a row for each line feed between them, and a
column for each character, or for each one from the last line feed on. -/
structure Counted (c d : Cursor) : Prop where
  text : d.text = c.text
  stop : d.stop = c.stop
  index_le : c.index ≤ d.index
  row : d.row = c.row + (c.upTo d.index).count '\n'
  column : '\n' ∉ c.upTo d.index → d.column = c.column + (d.index - c.index)
  column_lineFeed : ∀ j, c.index ≤ j → j < d.index → c.text[j]? = some '\n' →
    (∀ k, j < k → k < d.index → c.text[k]? ≠ some '\n') → d.column = d.index - j

variable {c d e : Cursor}

theorem Passes.refl (c : Cursor) : c.Passes c := ⟨[], List.nil_prefix, rfl⟩

theorem Passes.trans (h : c.Passes d) (h' : d.Passes e) : c.Passes e := by
  obtain ⟨cs, ⟨rest, hcs⟩, rfl⟩ := h
  obtain ⟨ds, hds, rfl⟩ := h'
  rw [window_past hcs.symm] at hds
  refine ⟨cs ++ ds, ?_, (past_append c cs ds).symm⟩
  rw [← hcs]
  exact (List.prefix_append_right_inj cs).mpr hds

theorem Passes.bounded (h : c.Passes d) (hc : c.Bounded) : d.Bounded := by
  obtain ⟨cs, -, rfl⟩ := h
  exact hc.past cs

theorem Passes.advance (hc : c.Bounded) (h : c.advance = .ok d) : c.Passes d := by
  rw [advance_eq hc] at h
  obtain rfl := Except.ok.inj h
  refine ⟨_, ?_, rfl⟩
  cases c.window with
  | nil => exact List.nil_prefix
  | cons ch cs => exact ⟨cs, rfl⟩

theorem Passes.skipWhile (hc : c.Bounded) {p : Char → Bool} (h : c.skipWhile p = .ok d) : c.Passes d := by
  rw [skipWhile_eq hc] at h
  obtain rfl := Except.ok.inj h
  exact ⟨_, List.takeWhile_prefix p, rfl⟩

/-- **Steps and skips** pass over a beginning of what is seen. -/
theorem Reaches.passes (h : c.Reaches d) (hc : c.Bounded) : c.Passes d := by
  induction h with
  | refl => exact .refl c
  | advance _ hstep ih => exact ih.trans (.advance (ih.bounded hc) hstep)
  | skipWhile p _ hstep ih => exact ih.trans (.skipWhile (ih.bounded hc) hstep)

/-- A beginning of what is seen stands at the index of the cursor. -/
theorem prefix_drop_of_prefix_window {cs : List Char} (h : cs <+: c.window) : cs <+: c.text.toList.drop c.index := by
  rw [window_eq, List.drop_take] at h
  exact h.trans (List.take_prefix _ _)

/-- What has been passed over is what stands between. -/
theorem upTo_past {cs : List Char} (h : cs <+: c.window) : c.upTo (c.past cs).index = cs := by
  rw [upTo, Array.toList_extract, List.extract_eq_take_drop, past_index, Nat.add_sub_cancel_left]
  exact (List.prefix_iff_eq_take.mp (prefix_drop_of_prefix_window h)).symm

theorem getElem?_text_of_isPrefix {cs : List Char} (h : cs <+: c.window) {i : Nat} (hi : i < cs.length) :
    c.text[c.index + i]? = some cs[i] := by
  have hget := List.prefix_iff_getElem?.mp (prefix_drop_of_prefix_window h) i hi
  rwa [List.getElem?_drop, Array.getElem?_toList] at hget

/-- **The counts of a cursor** are those of what it has passed over. -/
theorem Passes.counted (h : c.Passes d) : c.Counted d := by
  obtain ⟨cs, hcs, rfl⟩ := h
  have hbetween := upTo_past hcs
  have hindex : (c.past cs).index = c.index + cs.length := past_index c cs
  constructor
  case text => rfl
  case stop => rfl
  case index_le => omega
  case row =>
    rw [hbetween]
    exact Place.afterAll_row cs c.toPlace
  case column =>
    rw [hbetween, hindex, Nat.add_sub_cancel_left]
    exact fun hnone => Place.afterAll_column hnone c.toPlace
  case column_lineFeed =>
    intro j hj hlt hfeed hlast
    obtain ⟨i, rfl⟩ := Nat.exists_eq_add_of_le hj
    have hi : i < cs.length := by omega
    rw [getElem?_text_of_isPrefix hcs hi] at hfeed
    have hsplit : cs = cs.take i ++ '\n' :: cs.drop (i + 1) := by
      rw [← Option.some.inj hfeed, List.getElem_cons_drop, List.take_append_drop]
    have hnone : '\n' ∉ cs.drop (i + 1) := by
      intro hmem
      obtain ⟨k, hk, hget⟩ := List.mem_iff_getElem.mp hmem
      rw [List.length_drop] at hk
      refine hlast (c.index + (i + 1 + k)) (by omega) (by omega) ?_
      rw [getElem?_text_of_isPrefix hcs (by omega), ← hget, List.getElem_drop]
    have hcolumn := Place.afterAll_column_lineFeed (cs.take i) hnone c.toPlace
    rw [← hsplit, List.length_drop] at hcolumn
    rw [hindex]
    exact hcolumn.trans (by omega)

end Cursor

/-! ## Tokens and failures -/

open Cursor

section Lexing

variable {c : Cursor}

theorem Lexeme.passes_start (c : Cursor) : c.Passes ((lexeme c.window).start c) :=
  ⟨_, ⟨_, lexeme_parts c.window⟩, rfl⟩

theorem Lexeme.passes_follow (c : Cursor) : c.Passes ((lexeme c.window).follow c) := by
  refine ⟨(lexeme c.window).blank ++ (lexeme c.window).body, ⟨(lexeme c.window).rest, ?_⟩, ?_⟩
  · rw [List.append_assoc, lexeme_parts]
  · rw [follow, start, past_append]

/-- Tokens start and end where the cursor before them has passed. -/
theorem passes_of_mem_tokens (h : c.Bounded) {t : Token} (ht : t ∈ (Lexed.ofCursor c).tokens) :
    c.Passes t.start ∧ c.Passes t.follow := by
  revert t
  refine ofCursor_induction (P := fun c s => ∀ {t : Token}, t ∈ s.tokens → c.Passes t.start ∧ c.Passes t.follow)
    (fun c cause _ _ t ht => ?_) (fun c _ _ t ht => ?_) (fun c tag _ _ _ ih t ht => ?_) c h
  · exact absurd ht List.not_mem_nil
  · obtain rfl := List.mem_singleton.mp ht
    exact ⟨⟨_, List.prefix_refl _, rfl⟩, ⟨_, List.prefix_refl _, rfl⟩⟩
  · have hfollow := Lexeme.passes_follow c
    rcases List.mem_cons.mp ht with rfl | ht
    · exact ⟨Lexeme.passes_start c, hfollow⟩
    · exact ⟨hfollow.trans (ih ht).1, hfollow.trans (ih ht).2⟩

theorem passes_of_failure? (h : c.Bounded) {e : Failure} (he : (Lexed.ofCursor c).failure? = some e) :
    ∃ d cause, c.Passes d ∧ e = d.malformed cause := by
  revert e
  refine ofCursor_induction
    (P := fun c s => ∀ {e : Failure}, s.failure? = some e → ∃ d cause, c.Passes d ∧ e = d.malformed cause)
    (fun c cause _ _ e he => ?_) (fun c _ _ e he => ?_) (fun c tag _ _ _ ih e he => ?_) c h
  · exact ⟨_, cause, Lexeme.passes_follow c, (Option.some.inj he).symm⟩
  · cases he
  · obtain ⟨d, cause, hpasses, rfl⟩ := ih he
    exact ⟨d, cause, (Lexeme.passes_follow c).trans hpasses, rfl⟩

/-- So does whatever a line is refused for. -/
theorem passes_of_blames (h : c.Bounded) {e : Failure} (he : (Lexed.ofCursor c).Blames e) :
    ∃ d cause, c.Passes d ∧ e = d.malformed cause := by
  cases he with
  | lexing he => exact passes_of_failure? h he
  | start ht => exact ⟨_, _, (passes_of_mem_tokens h ht).1, rfl⟩
  | follow ht => exact ⟨_, _, (passes_of_mem_tokens h ht).2, rfl⟩

end Lexing

/-! ## Where lines begin -/

/-- The place is where its index is found from the beginning of the text: the row is one more than the line feeds before
it, the column one more than the characters since the last of them. -/
structure Place.IsIn (p : Place) (cs : List Char) : Prop where
  index_le : p.index ≤ cs.length
  row : p.row = 1 + (cs.take p.index).count '\n'
  column : p.column = 1 + ((cs.take p.index).reverse.takeWhile (· ≠ '\n')).length

theorem Place.column_afterAll (ds : List Char) :
    (afterAll {} ds).column = 1 + (ds.reverse.takeWhile (· ≠ '\n')).length := by
  induction ds using List.reverseRecOn with
  | nil => rfl
  | append_singleton ds ch ih =>
    rw [afterAll_append, afterAll_cons, afterAll_nil, List.reverse_append, List.reverse_singleton,
      List.singleton_append]
    by_cases hch : ch = '\n'
    · simp [after, hch]
    · rw [after, if_neg hch, List.takeWhile_cons_of_pos (by simpa using hch), List.length_cons, ih]
      exact Nat.add_assoc _ _ _

/-- Counting from the beginning comes there. -/
theorem Place.isIn_afterAll {cs ds : List Char} (h : ds <+: cs) : (afterAll {} ds).IsIn cs := by
  have hindex : (afterAll {} ds).index = ds.length := by simp
  have htake : cs.take ds.length = ds := (List.prefix_iff_eq_take.mp h).symm
  constructor
  case index_le =>
    rw [hindex]
    exact h.length_le
  case row =>
    rw [hindex, htake]
    exact afterAll_row ds {}
  case column =>
    rw [hindex, htake]
    exact column_afterAll ds

/-- Wherever a line's cursor has passed, its place is one of the whole text. -/
theorem Cursor.Passes.isIn {text : String} {c d : Cursor} (hc : c ∈ lineCursors (terminated text.toList))
    (h : c.Passes d) : d.toPlace.IsIn (terminated text.toList) := by
  obtain ⟨before, hplace, hbefore⟩ := exists_before hc
  obtain ⟨cs, hcs, rfl⟩ := h
  have hpast : (c.past cs).toPlace = Place.afterAll {} (before ++ cs) := by
    rw [Place.afterAll_append, ← hplace]
    rfl
  rw [hpast]
  exact Place.isIn_afterAll (((List.prefix_append_right_inj before).mpr hcs).trans hbefore)

/-- **Places are those of the whole text.** Whatever steps and skips a cursor makes, its counts go on from where it
began; none of them fails. So the tokens of every line stand where one finds them from the beginning of the text, and
what is said of malformed text is said of such a place. -/
theorem places_absolute :
    (∀ c d : Cursor, c.Bounded → c.Reaches d →
      c.Counted d ∧ (∃ d', d.advance = .ok d') ∧ ∀ p, ∃ d', d.skipWhile p = .ok d') ∧
    ∀ text : String,
      (∀ c ∈ lineCursors (terminated text.toList), ∀ t ∈ (Lexed.ofCursor c).tokens,
        t.start.toPlace.IsIn (terminated text.toList) ∧ t.follow.toPlace.IsIn (terminated text.toList)) ∧
      ∀ m, readFormulas text = .error (.malformed m) → m.place.IsIn (terminated text.toList) := by
  constructor
  · intro c d hc hreaches
    have hpasses := hreaches.passes hc
    have hd := hpasses.bounded hc
    exact ⟨hpasses.counted, ⟨_, advance_eq hd⟩, fun p => ⟨_, skipWhile_eq hd p⟩⟩
  · intro text
    constructor
    · intro c hc t ht
      obtain ⟨hstart, hfollow⟩ := passes_of_mem_tokens (bounded_of_mem_lineCursors hc) ht
      exact ⟨hstart.isIn hc, hfollow.isIn hc⟩
    · intro m h
      rw [readFormulas_eq] at h
      cases hout : (afterLines text).2.2 with
      | ok u =>
        simp only [hout] at h
        split at h
        · cases h
          exact Place.isIn_afterAll (List.prefix_refl _)
        · cases h
      | error e =>
        simp only [hout] at h
        obtain rfl := Except.error.inj h
        obtain ⟨c, hc, s, hs, he⟩ := Session.exists_enter_error hout
        rcases Session.enter_blames (hs Session.wellFormed_empty).graph.named he with hblames | ⟨x, y, hcyclic⟩
        · obtain ⟨d, cause, hpasses, hmalformed⟩ := passes_of_blames (bounded_of_mem_lineCursors hc) hblames
          obtain rfl := Failure.malformed.inj hmalformed
          exact hpasses.isIn hc
        · cases hcyclic

/-- A cursor passes the end of its line in the fourth row; and the bracket in `a=)` is where the second line has it. -/
theorem places_two_rows :
    (∃ c d : Cursor, c.Bounded ∧ c.Reaches d ∧ (c.row, c.column) = (4, 7) ∧ (d.row, d.column) = (5, 2) ∧
      c.Counted d) ∧
    readFormulas "b=1\n a=)" = .error (.malformed ⟨⟨7, 2, 4⟩, .unknownToken⟩) ∧
      (Place.mk 7 2 4).IsIn "b=1\n a=)\n".toList := by
  let c : Cursor := { index := 1, row := 4, column := 7, text := #['a', 'b', '\n', ' ', 'c'], stop := some 4 }
  have hbounded : c.Bounded := Nat.le_succ 4
  have hread : readFormulas "b=1\n a=)" = .error (.malformed ⟨⟨7, 2, 4⟩, .unknownToken⟩) := by decide +kernel
  have hreaches : c.Reaches (c.past ['b', '\n', ' ']) := .skipWhile Text.isBlank (.advance .refl (by cbv)) (by cbv)
  have hplace := (places_absolute.2 "b=1\n a=)").2 _ hread
  exact ⟨⟨c, _, hbounded, hreaches, rfl, by decide, (places_absolute.1 c _ hbounded hreaches).1⟩, hread, hplace⟩

end EvalOrder
