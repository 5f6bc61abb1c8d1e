import EvalOrder.Proofs.Placement

/-!
# Texts after one another

Several texts, each with a line feed at its end, are put together into one. The lines of the whole are the lines
of the parts, moved by what stands before them, so entering them is entering the lines of one part after those of
another.

Results:
* `lines_append`, `lineCursors_append`: the lines of two texts, and the cursors to them.
* `enterAll_append`, `enterAll_append_of_error`: entering some lines and then others.
* `read_of_error`, `read_of_undefined`, `read_of_linked`: how reading a text ends, after its lines.
* **`enterAll_joined`**: entering the lines of all parts.
-/

namespace EvalOrder

/-! ## The lines of two texts -/

theorem lines_append (l cs : List Char) : lines (l ++ '\n' :: cs) = lines (l ++ ['\n']) ++ lines cs := by
  induction l with
  | nil => simp [lines]
  | cons c l ih =>
    rw [List.cons_append, List.cons_append, lines, lines, ih]
    by_cases hc : c = '\n'
    · simp [hc]
    · obtain ⟨line, more, hsplit⟩ := List.exists_cons_of_ne_nil (List.splitOn_ne_nil '\n' l)
      simp [hc, lines_append_lineFeed, hsplit]

/-- A text that ends with a line feed has as many lines as line feeds. -/
theorem length_lines (l : List Char) : (lines (l ++ ['\n'])).length = (l ++ ['\n']).count '\n' := by
  induction l with
  | nil => rfl
  | cons c l ih =>
    rw [List.cons_append, lines, List.count_cons]
    by_cases hc : c = '\n'
    · simp [hc, ih]
    · obtain ⟨line, more, hsplit⟩ := List.exists_cons_of_ne_nil (List.splitOn_ne_nil '\n' l)
      rw [lines_append_lineFeed, hsplit] at ih
      simp [hc, lines_append_lineFeed, hsplit, ← ih]

theorem cursorsAt_append (text : Array Char) (ls ms : List (List Char)) (start row : Nat) :
    cursorsAt text start row (ls ++ ms) =
      cursorsAt text start row ls ++ cursorsAt text (start + ls.flatten.length) (row + ls.length) ms := by
  induction ls generalizing start row with
  | nil => rfl
  | cons l ls ih =>
    have hstart : start + l.length + ls.flatten.length = start + (l :: ls).flatten.length := by
      rw [List.flatten_cons, List.length_append, Nat.add_assoc]
    have hrow : row + 1 + ls.length = row + (l :: ls).length := by
      rw [List.length_cons]
      omega
    rw [List.cons_append, cursorsAt, ih, hstart, hrow, cursorsAt, List.cons_append]

/-- Cursors into a text that is put between others. -/
theorem map_embed_cursorsAt (before after cs : List Char) (ls : List (List Char)) (start row : Nat)
    (h : start + ls.flatten.length ≤ cs.length) :
    (cursorsAt cs.toArray start row ls).map (Cursor.embed before after) =
      cursorsAt (before ++ (cs ++ after)).toArray (start + before.length) (row + before.count '\n') ls := by
  induction ls generalizing start row with
  | nil => rfl
  | cons l ls ih =>
    rw [List.flatten_cons, List.length_append] at h
    have hstart : start + l.length + before.length = start + before.length + l.length := by omega
    have hrow : row + 1 + before.count '\n' = row + before.count '\n' + 1 := by omega
    have hlimit : min (start + l.length) cs.length = start + l.length := by omega
    rw [cursorsAt, List.map_cons, ih _ _ (by omega), hstart, hrow, cursorsAt]
    simp [Cursor.embed, Place.moved, Cursor.limit, hlimit, hstart]

/-- **The lines of two texts**, of which the first ends with a line feed. -/
theorem lineCursors_append (l cs : List Char) :
    lineCursors ((l ++ ['\n']) ++ cs) =
      (lineCursors (l ++ ['\n'])).map (Cursor.embed [] cs) ++
        (lineCursors cs).map (Cursor.embed (l ++ ['\n']) []) := by
  have hlines : lines ((l ++ ['\n']) ++ cs) = lines (l ++ ['\n']) ++ lines cs := by
    rw [List.append_assoc, List.singleton_append, lines_append]
  have hfirst := map_embed_cursorsAt [] cs (l ++ ['\n']) (lines (l ++ ['\n'])) 0 1
    (by rw [flatten_lines, Nat.zero_add])
  have hsecond := map_embed_cursorsAt (l ++ ['\n']) [] cs (lines cs) 0 1 (by rw [flatten_lines, Nat.zero_add])
  rw [lineCursors, hlines, cursorsAt_append, flatten_lines, length_lines, lineCursors, lineCursors, hfirst, hsecond,
    List.append_nil]
  rfl

/-! ## Several texts -/

/-- Texts put together, each with a line feed at its end. -/
def joined (texts : List String) : List Char := texts.flatMap fun text => terminated text.toList

theorem joined_cons (text : String) (texts : List String) :
    joined (text :: texts) = terminated text.toList ++ joined texts :=
  List.flatMap_cons

theorem exists_joined_eq {texts : List String} (h : texts ≠ []) : ∃ l, joined texts = l ++ ['\n'] := by
  induction texts with
  | nil => exact absurd rfl h
  | cons text texts ih =>
    rw [joined_cons]
    cases texts with
    | nil => exact ⟨_, by rw [joined, List.flatMap_nil, List.append_nil, ← terminated_eq]⟩
    | cons text' texts =>
      obtain ⟨l, hl⟩ := ih (List.cons_ne_nil _ _)
      exact ⟨terminated text.toList ++ l, by rw [hl, List.append_assoc]⟩

/-- They end with a line feed. -/
theorem terminated_joined {texts : List String} (h : texts ≠ []) : terminated (joined texts) = joined texts := by
  obtain ⟨l, hl⟩ := exists_joined_eq h
  rw [hl]
  simp [terminated]

theorem lineCursors_joined_cons (text : String) (texts : List String) :
    lineCursors (joined (text :: texts)) =
      (lineCursors (terminated text.toList)).map (Cursor.embed [] (joined texts)) ++
        (lineCursors (joined texts)).map (Cursor.embed (terminated text.toList) []) := by
  rw [joined_cons, terminated_eq, lineCursors_append]

/-- The place behind them is as many rows further as they have lines. -/
theorem Place.afterAll_terminated (p : Place) (hp : p.column = 1) (cs : List Char) :
    p.afterAll (terminated cs) = p.moved (terminated cs) := by
  rw [terminated_eq, afterAll_append]
  generalize (terminated cs).dropLast = l
  have hindex := afterAll_index l p
  have hlast := afterAll_row l p
  simp only [afterAll_cons, afterAll_nil, after, if_true, moved, hindex, hlast, hp, List.length_append,
    List.length_singleton, List.count_append, List.count_singleton_self]
  simp only [Nat.add_assoc]

theorem Place.afterAll_joined (p : Place) (hp : p.column = 1) (texts : List String) :
    p.afterAll (joined texts) = p.moved (joined texts) := by
  induction texts with
  | nil => rfl
  | cons text texts ih => rw [joined_cons, afterAll_append, p.afterAll_terminated hp, afterAll_moved, ih, moved_append]

theorem revised_moved_nil {α : Type} (outcome : Except Failure α) :
    revised (Malformed.moved []) outcome = outcome := by
  cases outcome with
  | error e => cases e <;> rfl
  | ok a => rfl

theorem revised_moved_append {α : Type} (before more : List Char) (outcome : Except Failure α) :
    revised (Malformed.moved (before ++ more)) outcome =
      revised (Malformed.moved before) (revised (Malformed.moved more) outcome) := by
  cases outcome with
  | error e =>
    cases e with
    | malformed m => simp only [revised_error, Failure.revise, Malformed.moved, Place.moved_append]
    | _ => rfl
  | ok a => rfl

namespace Session

/-- Entering some lines and then others. -/
theorem enterAll_append (ds : List Cursor) {cs : List Cursor} {s : Session} (h : (s.enterAll cs).2.2 = .ok ()) :
    (s.enterAll (cs ++ ds)).1 = ((s.enterAll cs).1.enterAll ds).1 ∧
      (s.enterAll (cs ++ ds)).2.2 = ((s.enterAll cs).1.enterAll ds).2.2 := by
  induction cs generalizing s with
  | nil => exact ⟨rfl, rfl⟩
  | cons c cs ih =>
    rw [enterAll] at h
    rw [List.cons_append, enterAll, enterAll]
    cases hout : (s.enter c).outcome with
    | error e =>
      rw [hout] at h
      cases h
    | ok u =>
      rw [hout] at h
      exact ih h

/-- Lines behind one that is refused are not looked at. -/
theorem enterAll_append_of_error (ds : List Cursor) {cs : List Cursor} {s : Session} {e : Failure}
    (h : (s.enterAll cs).2.2 = .error e) : s.enterAll (cs ++ ds) = s.enterAll cs := by
  induction cs generalizing s with
  | nil => cases h
  | cons c cs ih =>
    rw [enterAll] at h
    rw [List.cons_append, enterAll, enterAll]
    cases hout : (s.enter c).outcome with
    | error e' => rfl
    | ok u =>
      simp only [hout] at h
      simp only [ih h]

/-- Enter the lines of a text. -/
def enterText (s : Session) (text : String) : Session × List Declaration × Except Failure Unit :=
  s.enterAll (lineCursors (terminated text.toList))

section Read

variable {s : Session} {text : String}

theorem read_of_error {e : Failure} (h : (s.enterText text).2.2 = .error e) :
    s.read text = ⟨(s.enterText text).1, (s.enterText text).2.1, [], .error e⟩ := by
  rw [read_eq, ← enterText, ← h]
  generalize s.enterText text = result at h
  obtain ⟨s', declarations, outcome⟩ := result
  obtain rfl : outcome = .error e := h
  rfl

theorem read_of_undefined (h : (s.enterText text).2.2 = .ok ()) (hne : (s.enterText text).1.undefined ≠ []) :
    s.read text = ⟨(s.enterText text).1, (s.enterText text).2.1, [],
      .error (.malformed ⟨Place.afterAll {} (terminated text.toList),
        .undefined (s.enterText text).1.undefined⟩)⟩ := by
  rw [read_eq, ← enterText]
  generalize s.enterText text = result at h hne
  obtain ⟨s', declarations, outcome⟩ := result
  obtain rfl : outcome = .ok () := h
  exact if_pos hne

theorem read_of_linked (h : (s.enterText text).2.2 = .ok ()) (hnil : (s.enterText text).1.undefined = []) :
    s.read text = ⟨{ (s.enterText text).1 with graph := (s.enterText text).1.graph.link },
      (s.enterText text).2.1, (s.enterText text).1.graph.linkEdges, .ok ()⟩ := by
  rw [read_eq, ← enterText]
  generalize s.enterText text = result at h hnil
  obtain ⟨s', declarations, outcome⟩ := result
  obtain rfl : outcome = .ok () := h
  exact if_neg fun hne => hne hnil

end Read

/-- The session after the lines of some texts. -/
def afterTexts (s : Session) (texts : List String) : Session := texts.foldl (fun s text => (s.enterText text).1) s

/-- The lines of all texts are entered. -/
def EntersAll (s : Session) : List String → Prop
  | [] => True
  | text :: texts => (s.enterText text).2.2 = .ok () ∧ (s.enterText text).1.EntersAll texts

/-- **Entering the lines of all texts** is entering those of the last after those of the others. -/
theorem enterAll_joined {texts : List String} (last : String) {s : Session} (h : s.EntersAll texts) :
    (s.enterAll (lineCursors (joined (texts ++ [last])))).1 = ((s.afterTexts texts).enterText last).1 ∧
      (s.enterAll (lineCursors (joined (texts ++ [last])))).2.2 =
        revised (Malformed.moved (joined texts)) ((s.afterTexts texts).enterText last).2.2 := by
  induction texts generalizing s with
  | nil =>
    have hlast : joined ([] ++ [last]) = terminated last.toList := List.append_nil _
    have hnil : joined [] = [] := rfl
    rw [hlast, hnil, revised_moved_nil]
    exact ⟨rfl, rfl⟩
  | cons text texts ih =>
    obtain ⟨hfirst, hrest⟩ := h
    have hbounded : ∀ cs : List Char, ∀ c ∈ lineCursors cs, c.Bounded := fun _ _ hc =>
      bounded_of_mem_lineCursors hc
    obtain ⟨hsession, hout⟩ := s.enterAll_embed [] (joined (texts ++ [last]))
      (hbounded (terminated text.toList))
    obtain ⟨hsession', hout'⟩ := (s.enterText text).1.enterAll_embed (terminated text.toList) []
      (hbounded (joined (texts ++ [last])))
    obtain ⟨hih, hihout⟩ := ih hrest
    have hok : (s.enterAll ((lineCursors (terminated text.toList)).map
        (Cursor.embed [] (joined (texts ++ [last]))))).2.2 = .ok () := by
      rw [hout]
      exact congrArg (revised _) hfirst
    obtain ⟨happend, happendout⟩ := enterAll_append
      ((lineCursors (joined (texts ++ [last]))).map (Cursor.embed (terminated text.toList) [])) hok
    rw [List.cons_append, lineCursors_joined_cons, happend, happendout, hsession, joined_cons, revised_moved_append]
    constructor
    · exact hsession'.trans hih
    · refine hout'.trans ?_
      rw [hihout]
      rfl

end Session

end EvalOrder
