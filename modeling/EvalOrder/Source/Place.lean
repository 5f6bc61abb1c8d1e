/-!
# Places in a text

A place is an index into a text together with the row and the column a reader would name: the numbers of a `Position`.
Index counts from 0, row and column from 1; only a line feed begins a new row.

Results:
* `afterAll_append`: passing over two stretches is passing over one after the other.
* `afterAll_index`, `afterAll_row`, `afterAll_column`: what is counted of the characters passed over.
-/

namespace EvalOrder

/-- A place in a text. -/
structure Place where
  index : Nat := 0
  row : Nat := 1
  column : Nat := 1
  deriving DecidableEq, Repr

namespace Place

/-- The place after the character `c`. -/
def after (p : Place) (c : Char) : Place :=
  if c = '\n' then ⟨p.index + 1, p.row + 1, 1⟩ else ⟨p.index + 1, p.row, p.column + 1⟩

/-- The place after all of `cs`. -/
def afterAll (p : Place) (cs : List Char) : Place :=
  cs.foldl after p

/-- The row and the column, as messages name them. -/
def describe (p : Place) : String :=
  s!"row: {p.row}; column: {p.column}"

/-- All three counts. -/
def summary (p : Place) : String :=
  s!"Position(index={p.index}, row={p.row}, column={p.column})"

/-- A message about what stands at the place. -/
def report (p : Place) (detail : String) : String :=
  s!"Error at {p.describe}.\n{detail}"

@[simp] theorem after_index (p : Place) (c : Char) : (p.after c).index = p.index + 1 := by
  unfold after
  split <;> rfl

@[simp] theorem afterAll_nil (p : Place) : p.afterAll [] = p := rfl

@[simp] theorem afterAll_cons (p : Place) (c : Char) (cs : List Char) :
    p.afterAll (c :: cs) = (p.after c).afterAll cs := rfl

theorem afterAll_append (p : Place) (cs ds : List Char) :
    p.afterAll (cs ++ ds) = (p.afterAll cs).afterAll ds :=
  List.foldl_append

@[simp] theorem afterAll_index (cs : List Char) :
    ∀ p : Place, (p.afterAll cs).index = p.index + cs.length := by
  induction cs with
  | nil => intro p; rfl
  | cons c cs ih => intro p; rw [afterAll_cons, ih, after_index, List.length_cons]; omega

/-- The row counts the line feeds passed over. -/
theorem afterAll_row (cs : List Char) : ∀ p : Place, (p.afterAll cs).row = p.row + cs.count '\n' := by
  induction cs with
  | nil => intro p; rfl
  | cons c cs ih =>
    intro p
    rw [afterAll_cons, ih, List.count_cons]
    unfold after
    by_cases hc : c = '\n'
    · simp only [hc, if_true, beq_self_eq_true]
      omega
    · simp [hc]

/-- The column counts the characters passed over, -/
theorem afterAll_column {cs : List Char} (h : '\n' ∉ cs) :
    ∀ p : Place, (p.afterAll cs).column = p.column + cs.length := by
  induction cs with
  | nil => intro p; rfl
  | cons c cs ih =>
    have hc : c ≠ '\n' := fun hc => h (hc ▸ List.mem_cons_self)
    have hcs : '\n' ∉ cs := fun hcs => h (List.mem_cons_of_mem c hcs)
    intro p
    rw [afterAll_cons, ih hcs, after, if_neg hc, List.length_cons]
    simp only
    omega

/-- and only those behind the last line feed. -/
theorem afterAll_column_lineFeed (cs : List Char) {ds : List Char} (h : '\n' ∉ ds) (p : Place) :
    (p.afterAll (cs ++ '\n' :: ds)).column = 1 + ds.length := by
  rw [afterAll_append, afterAll_cons, afterAll_column h, after, if_pos rfl]

end Place

end EvalOrder
