import EvalOrder.Source.Cursor

/-!
# Lines

A text of declarations ends with a line feed, which is supplied if it is missing, and each of its lines is read by
itself: a cursor at its beginning, bounded by the place after its line feed (`lineCursors`). This is the loop of
`Parser.parse` without its body.

Results:
* `flatten_lines`: the lines together are the text.
* `bounded_of_mem_lineCursors`: no line is bounded beyond the text.
-/

namespace EvalOrder

/-- The text with a line feed at its end. -/
def terminated (cs : List Char) : List Char :=
  if cs.getLast? = some '\n' then cs else cs ++ ['\n']

/-- The lines of a text, each with the line feed that ends it. -/
def lines : List Char → List (List Char)
  | [] => []
  | c :: cs =>
    if c = '\n' then [c] :: lines cs
    else match lines cs with
      | [] => [[c]]
      | line :: more => (c :: line) :: more

/-- A cursor for each line of `text`, the first of which begins at index `start` and has number `row`. -/
def cursorsAt (text : Array Char) (start row : Nat) : List (List Char) → List Cursor
  | [] => []
  | line :: more =>
    { index := start, row, text, stop := some (start + line.length) } ::
      cursorsAt text (start + line.length) (row + 1) more

/-- A cursor for each line of a terminated text. -/
def lineCursors (cs : List Char) : List Cursor :=
  cursorsAt cs.toArray 0 1 (lines cs)

theorem flatten_lines : ∀ cs : List Char, (lines cs).flatten = cs
  | [] => rfl
  | c :: cs => by
    have ih := flatten_lines cs
    unfold lines
    split
    · simp [ih]
    · split
      · rename_i h
        rw [h] at ih
        simp [← ih]
      · rename_i line more h
        rw [h] at ih
        simp [← ih]

theorem stop_le_of_mem_cursorsAt {text : Array Char} {c : Cursor} :
    ∀ {ls : List (List Char)} {start row : Nat}, c ∈ cursorsAt text start row ls →
      c.text = text ∧ c.limit ≤ start + ls.flatten.length
  | [], _, _, h => absurd h List.not_mem_nil
  | line :: more, start, row, h => by
    rw [List.flatten_cons, List.length_append]
    rcases List.mem_cons.mp h with rfl | h
    · exact ⟨rfl, Nat.add_le_add_left (Nat.le_add_right _ _) _⟩
    · obtain ⟨ht, hl⟩ := stop_le_of_mem_cursorsAt h
      exact ⟨ht, by omega⟩

/-- No line is bounded beyond the text. -/
theorem bounded_of_mem_lineCursors {cs : List Char} {c : Cursor} (h : c ∈ lineCursors cs) :
    c.Bounded := by
  obtain ⟨ht, hl⟩ := stop_le_of_mem_cursorsAt h
  rw [flatten_lines] at hl
  simpa [Cursor.Bounded, ht] using hl

end EvalOrder
