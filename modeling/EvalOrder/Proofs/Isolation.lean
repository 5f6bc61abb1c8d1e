import EvalOrder.Proofs.Placement

/-!
# A bounded cursor reads a line by itself

A line is read through a cursor into the whole text, bounded by the end of the line. The bound is passed on to every
cursor that comes of the first, and none looks beyond it, so what is read is what the characters up to the bound say by
themselves, and only the places differ: by the index where the line begins, and by the row that it is said to be in.

Two cursors that see the same read alike; what holds of the places where they stand, and goes on holding behind the same
characters, holds of all places that they come to.

Results:
* `Behind.afterAll`: what goes on holding behind one character does so behind several.
* `mirrors_of_window`: cursors that see the same.
* **`mirrors_ofStretch`**: a bounded cursor and the line by itself.
-/

namespace EvalOrder

/-! ## Places that correspond -/

/-- What holds of two places goes on holding behind any character. -/
def Behind (R : Place → Place → Prop) : Prop := ∀ p q ch, R p q → R (p.after ch) (q.after ch)

theorem Behind.afterAll {R : Place → Place → Prop} (h : Behind R) :
    ∀ (cs : List Char) {p q : Place}, R p q → R (p.afterAll cs) (q.afterAll cs)
  | [], _, _, hpq => hpq
  | ch :: cs, p, q, hpq => h.afterAll cs (h p q ch hpq)

/-- The second place is that of the first in a text that begins at an index and in a row of another. -/
structure Place.ShiftedBy (index row : Nat) (p q : Place) : Prop where
  index : q.index = p.index + index
  row : q.row + 1 = p.row + row
  column : q.column = p.column

theorem Place.behind_shiftedBy (index row : Nat) : Behind (ShiftedBy index row) := by
  intro p q ch h
  have hindex := h.index
  have hrow := h.row
  have hcolumn := h.column
  by_cases hch : ch = '\n'
  · simp only [after, hch, if_true]
    exact ⟨by simp only; omega, by simp only; omega, rfl⟩
  · simp only [after, hch, if_false]
    exact ⟨by simp only; omega, hrow, congrArg (· + 1) hcolumn⟩

/-! ## Cursors that see the same -/

/-- Tokens of one kind and text, at places that correspond. -/
structure Token.Alike (R : Place → Place → Prop) (t t' : Token) : Prop where
  tag : t'.tag = t.tag
  text : t'.text = t.text
  start : R t.start.toPlace t'.start.toPlace
  follow : R t.follow.toPlace t'.follow.toPlace

/-- Texts that are malformed for the same cause, at places that correspond. -/
inductive Failure.Alike (R : Place → Place → Prop) : Failure → Failure → Prop
  | malformed {p q : Place} (cause : SyntaxCause) : R p q → Alike R (.malformed ⟨p, cause⟩) (.malformed ⟨q, cause⟩)

/-- **Cursors that see the same** read the same tokens, and fail alike. -/
theorem mirrors_of_window {R : Place → Place → Prop} (hR : Behind R) {c d : Cursor} (hc : c.Bounded) (hd : d.Bounded)
    (hwindow : d.window = c.window) (hplace : R c.toPlace d.toPlace) :
    Lexed.Mirrors (Token.Alike R) (Failure.Alike R) (.ofCursor c) (.ofCursor d) := by
  have hstart : ∀ {c d : Cursor}, R c.toPlace d.toPlace → ∀ l : Lexeme, R (l.start c).toPlace (l.start d).toPlace :=
    fun h l => hR.afterAll l.blank h
  have hfollow : ∀ {c d : Cursor}, R c.toPlace d.toPlace → ∀ l : Lexeme, R (l.follow c).toPlace (l.follow d).toPlace :=
    fun h l => hR.afterAll l.body (hstart h l)
  revert d
  refine ofCursor_induction
    (P := fun c s => ∀ {d : Cursor}, d.Bounded → d.window = c.window → R c.toPlace d.toPlace →
      Lexed.Mirrors (Token.Alike R) (Failure.Alike R) s (.ofCursor d))
    (fun c cause _ hk d hd hw hp => ?_) (fun c _ hk d hd hw hp => ?_) (fun c tag _ hk ht ih d hd hw hp => ?_) c hc
  · rw [Lexed.ofCursor_of_error hd (hw ▸ hk), hw]
    exact .broken (.malformed cause (hfollow hp _))
  · have hend := lexeme_of_endOfText hk
    have hlast : R (c.past c.window).toPlace (d.past c.window).toPlace := hR.afterAll c.window hp
    rw [Lexed.ofCursor_of_ok hd (hw ▸ hk), if_pos rfl, hw]
    simp only [Lexeme.start, Lexeme.follow, hend, Cursor.past_nil]
    exact .done ⟨rfl, by simp [Token.text, Cursor.take_eq], hlast, hlast⟩
  · have htext := text_tokenAt (c := d) tag
    have hrest : ((lexeme c.window).follow d).window = ((lexeme c.window).follow c).window := by
      rw [Lexeme.window_follow, ← hw, Lexeme.window_follow]
    rw [hw] at htext
    rw [Lexed.ofCursor_of_ok hd (hw ▸ hk), if_neg ht, hw]
    refine .token ⟨rfl, htext.trans (text_tokenAt tag).symm, hstart hp _, hfollow hp _⟩ ?_
    exact ih (Lexeme.follow_bounded hd _) hrest (hfollow hp _)

/-! ## A line by itself -/

/-- The characters of a text from one index to another. -/
def stretch (text : String) (start stop : Nat) : String := String.ofList ((text.toList.take stop).drop start)

/-- A cursor to them in the whole text, said to be in a row. -/
def Cursor.ofStretch (text : String) (start stop row : Nat) : Cursor :=
  { index := start, row, text := text.toList.toArray, stop := some stop }

theorem Cursor.window_ofStretch (text : String) (start stop row : Nat) :
    (ofStretch text start stop row).window = (text.toList.take stop).drop start := by
  simp [window_eq, ofStretch, limit]

theorem Cursor.bounded_ofStretch {text : String} {stop : Nat} (h : stop ≤ text.length) (start row : Nat) :
    (ofStretch text start stop row).Bounded := by
  simpa [Bounded, ofStretch, limit, String.length_toList] using h

/-- **A bounded cursor reads a line by itself.** It reads the tokens that the characters up to its bound are by
themselves, or fails behind the same of them for the same cause; all places are those in the line, shifted to where it
begins in the text. What stands at the bound and behind it makes no difference. -/
theorem mirrors_ofStretch {text : String} {stop : Nat} (h : stop ≤ text.length) (start row : Nat) :
    Lexed.Mirrors (Token.Alike (Place.ShiftedBy start row)) (Failure.Alike (Place.ShiftedBy start row))
      (.ofCursor (.ofString (stretch text start stop))) (.ofCursor (.ofStretch text start stop row)) ∧
    ∀ text' : String, stop ≤ text'.length → text'.toList.take stop = text.toList.take stop →
      Lexed.Mirrors (Token.Alike Eq) (Failure.Alike Eq)
        (.ofCursor (.ofStretch text start stop row)) (.ofCursor (.ofStretch text' start stop row)) := by
  have hbounded := Cursor.bounded_ofStretch h start row
  constructor
  · refine mirrors_of_window (Place.behind_shiftedBy start row) (Cursor.ofString_bounded _) hbounded ?_ ?_
    · rw [Cursor.window_ofStretch, Cursor.ofString_window, stretch, String.toList_ofList]
    · exact ⟨(Nat.zero_add start).symm, Nat.add_comm row 1, rfl⟩
  · intro text' h' hsame
    refine mirrors_of_window (R := Eq) ?_ hbounded (Cursor.bounded_ofStretch h' start row) ?_ rfl
    · exact fun p q ch hpq => congrArg (Place.after · ch) hpq
    · rw [Cursor.window_ofStretch, Cursor.window_ofStretch, hsame]

/-- The digits of `x=12y` up to its letter are a number, as by themselves and as in `x=12`, though no token begins there
without the bound. -/
theorem mirrors_ofStretch_digits :
    4 ≤ "x=12y".length ∧ 4 ≤ "x=12".length ∧ "x=12".toList.take 4 = "x=12y".toList.take 4 ∧
    Lexed.Mirrors (Token.Alike (Place.ShiftedBy 2 7)) (Failure.Alike (Place.ShiftedBy 2 7))
      (.ofCursor (.ofString "12")) (.ofCursor (.ofStretch "x=12y" 2 4 7)) ∧
    Lexed.Mirrors (Token.Alike Eq) (Failure.Alike Eq)
      (.ofCursor (.ofStretch "x=12y" 2 4 7)) (.ofCursor (.ofStretch "x=12" 2 4 7)) ∧
    (Lexed.ofCursor (.ofString "12")).words = [⟨.number, "12"⟩, ⟨.endOfText, ""⟩] ∧
    (Lexed.ofCursor (.ofStretch "x=12y" 2 5 7)).failure? = some (.malformed ⟨⟨4, 7, 3⟩, .lettersAfterDigits⟩) := by
  have hfirst : 4 ≤ "x=12y".length := by decide
  have hsecond : 4 ≤ "x=12".length := by decide
  have hsame : "x=12".toList.take 4 = "x=12y".toList.take 4 := by decide
  obtain ⟨hline, hothers⟩ := mirrors_ofStretch hfirst 2 7
  exact ⟨hfirst, hsecond, hsame, hline, hothers "x=12" hsecond hsame, by decide +kernel, by decide +kernel⟩

end EvalOrder
