import EvalOrder.Failure

/-!
# Cursors

Model of `Position`: `peek`, `at_end`, `advance`, `satisfies`, `skip_while`, and `substring`, which is `take`. A cursor
is a place in a text together with a bound: the characters it can see, its `window`, end at the bound, or at the end of
the text when it has none. A bound lets one line be read on its own while places still refer to the whole text.

Reading at or beyond the end of the window sees no character. A bound may lie beyond the text; then the window is
shorter than promised, and reading at its end is a fault. Left out are negative indices, bounds and lengths, which no
caller gives.

Results:
* `peek_eq`: with its bound inside the text a cursor sees the first character of its window, if any.
* `advance_past`, `skipWhile_past`: a step or a skip moves over a stretch of the window, with the same text and bound.
* `window_past`: after moving over a stretch of the window, the rest of it is left.
-/

namespace EvalOrder

/-- A place in a text and where reading stops. -/
structure Cursor extends Place where
  text : Array Char
  stop : Option Nat := none
  deriving DecidableEq

namespace Cursor

/-- A cursor at the beginning of a text. -/
def ofString (s : String) : Cursor := { text := s.toList.toArray }

/-- The index at which reading stops. -/
def limit (c : Cursor) : Nat := c.stop.getD c.text.size

/-- The characters from the cursor up to its limit. -/
def window (c : Cursor) : List Char := (c.text.extract c.index c.limit).toList

/-- No character is left. -/
def atEnd (c : Cursor) : Bool := c.limit ≤ c.index

/-- The character at the cursor; `none` at the end. -/
def peek (c : Cursor) : Except Failure (Option Char) :=
  if c.atEnd then .ok none
  else match c.text[c.index]? with
    | some ch => .ok (some ch)
    | none => .error (.fault .pastText)

/-- The cursor after the characters `cs`. -/
def past (c : Cursor) (cs : List Char) : Cursor :=
  { c with toPlace := c.toPlace.afterAll cs }

/-- The cursor one character on; at the end it stays. -/
def advance (c : Cursor) : Except Failure Cursor := do
  match ← c.peek with
  | some ch => .ok (c.past [ch])
  | none => .ok c

/-- The character at the cursor is in the class; at the end there is none. -/
def satisfies (c : Cursor) (p : Char → Bool) : Except Failure Bool := do
  return (← c.peek).any p

/-- The cursor after the characters of a class: at the first one outside it, or at the end. -/
def skipWhile (c : Cursor) (p : Char → Bool) : Except Failure Cursor := do
  let skipped := c.past (c.window.takeWhile p)
  let _ ← skipped.peek
  .ok skipped

/-- `substring`: the next `n` characters, or as many as there are. -/
def take (c : Cursor) (n : Nat) : String :=
  String.ofList (c.text.extract c.index (min (c.index + n) c.limit)).toList

/-! ## What a cursor sees -/

/-- The bound lies inside the text. -/
def Bounded (c : Cursor) : Prop := c.limit ≤ c.text.size

theorem window_eq (c : Cursor) : c.window = (c.text.toList.take c.limit).drop c.index := by
  simp [window, Array.toList_extract, List.drop_take]

theorem length_window_le (c : Cursor) : c.window.length ≤ c.limit - c.index := by
  rw [window_eq, List.length_drop, List.length_take]
  omega

/-- With its bound inside the text a cursor sees the first character of its window. -/
theorem peek_eq {c : Cursor} (h : c.Bounded) : c.peek = .ok c.window.head? := by
  unfold peek
  split
  · rename_i he
    have hnil : c.window = [] := by
      have := length_window_le c
      have : c.limit ≤ c.index := by simpa [atEnd] using he
      exact List.length_eq_zero_iff.mp (by omega)
    simp [hnil]
  · rename_i he
    have hlt : c.index < c.limit := by simpa [atEnd] using he
    have hsize : c.index < c.text.size := Nat.lt_of_lt_of_le hlt h
    rw [window_eq, List.head?_drop, List.getElem?_take_of_lt hlt]
    simp [hsize]

theorem index_lt_limit_of_peek {c : Cursor} {ch : Char} (h : c.peek = .ok (some ch)) :
    c.index < c.limit := by
  unfold peek at h
  split at h
  · simp at h
  · rename_i he
    simpa [atEnd] using he

/-! ## How a cursor moves -/

@[simp] theorem past_text (c : Cursor) (cs : List Char) : (c.past cs).text = c.text := rfl

@[simp] theorem past_limit (c : Cursor) (cs : List Char) : (c.past cs).limit = c.limit := rfl

@[simp] theorem past_index (c : Cursor) (cs : List Char) :
    (c.past cs).index = c.index + cs.length :=
  Place.afterAll_index cs c.toPlace

@[simp] theorem past_nil (c : Cursor) : c.past [] = c := rfl

theorem past_append (c : Cursor) (cs ds : List Char) : c.past (cs ++ ds) = (c.past cs).past ds := by
  simp [past, Place.afterAll_append]

/-- After moving over the first part of a window, the second is left. -/
theorem window_past {c : Cursor} {cs ds : List Char} (h : c.window = cs ++ ds) :
    (c.past cs).window = ds := by
  rw [window_eq] at h ⊢
  rw [past_text, past_limit, past_index, ← List.drop_drop, h, List.drop_left]

theorem advance_past {c c' : Cursor} (h : c.advance = .ok c') :
    (c.peek = .ok none ∧ c' = c) ∨ ∃ ch, c.peek = .ok (some ch) ∧ c' = c.past [ch] := by
  unfold advance at h
  cases hp : c.peek with
  | error e => rw [hp] at h; cases h
  | ok o =>
    rw [hp] at h
    cases o with
    | none => cases h; exact .inl ⟨rfl, rfl⟩
    | some ch => cases h; exact .inr ⟨ch, rfl, rfl⟩

theorem skipWhile_past {c c' : Cursor} {p : Char → Bool} (h : c.skipWhile p = .ok c') :
    c' = c.past (c.window.takeWhile p) := by
  unfold skipWhile at h
  cases hp : (c.past (c.window.takeWhile p)).peek with
  | error e => simp only [hp] at h; cases h
  | ok o => simp only [hp] at h; cases h; rfl

end Cursor

end EvalOrder
