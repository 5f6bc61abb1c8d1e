import EvalOrder.Proofs.Placement

/-!
# How a text divides into tokens

What the tokens of a text are can be said without saying how they are found. A text divides into pieces, each some
blanks and then the characters of a token: a sign by itself; a letter with letters and digits, behind which none of
these stands; or digits, behind which neither a digit nor a letter stands. Behind the last piece there are only blanks.
No character is of two classes, so the first character of a piece tells its kind and what stands behind it where it
ends: a text divides in one way at most.

The reader finds this division. Where a text has none, its beginning has one up to blanks and a character of no class,
or up to blanks and digits with a letter behind them (`Breaks`), and there the reader stops.

Results:
* `not_covers_of_apart`: classes whose ranges stand apart have no character in common.
* `lexeme_of_spells`, `lexeme_of_breaks`, `lexeme_of_blanks`: the first piece of a text is its first lexeme.
* `IsDivision.unique`: a text divides in one way.
* `exists_divides`: how far any text divides.
* `ofCursor_of_divides`: the tokens behind pieces come after those that the pieces are.
* **`tokens_divide`**: the tokens after a cursor are the one division of what it sees.
-/

namespace EvalOrder

/-! ## Classes that have no character in common -/

namespace Text

/-- No range of the first list meets one of the second. The lists ascend, so ranges that end below one of the first list
are not looked at again. -/
def Ranges.apart : Ranges → Ranges → Bool
  | [], _ => true
  | (first, last) :: rest, others =>
    let above := others.dropWhile fun r => r.2 < first
    (above.head?.all fun r => last < r.1) && apart rest above

/-- Ranges that end below a code point do not cover it. -/
theorem Ranges.covers_dropWhile {others : Ranges} {first n : Nat} (hn : first ≤ n) (h : covers others n = true) :
    covers (others.dropWhile fun r => r.2 < first) n = true := by
  induction others with
  | nil => exact h
  | cons r others ih =>
    by_cases hr : r.2 < first
    · rw [List.dropWhile_cons_of_pos (by simpa using hr)]
      refine ih ?_
      rw [covers] at h
      split at h
      · cases h
      · have hnot : ¬ n ≤ r.2 := by omega
        simpa [hnot] using h
    · rwa [List.dropWhile_cons_of_neg (by simpa using hr)]

/-- A code point that the first list covers is not covered by the second. -/
theorem Ranges.not_covers_of_apart {n : Nat} : ∀ {rs others : Ranges}, apart rs others = true →
    covers rs n = true → covers others n = false
  | [], _, _, hn => by simp [covers] at hn
  | (first, last) :: rest, others, h, hn => by
    rw [apart, Bool.and_eq_true] at h
    obtain ⟨hhead, hrest⟩ := h
    rw [covers] at hn
    by_contra hcovers
    rw [Bool.not_eq_false] at hcovers
    split at hn
    · cases hn
    · rename_i hfirst
      have habove := covers_dropWhile (Nat.le_of_not_lt hfirst) hcovers
      rcases Bool.or_eq_true _ _ ▸ hn with hlast | hn
      · -- the first range that is left begins above the code point
        generalize others.dropWhile _ = above at hhead habove
        cases above with
        | nil => simp [covers] at habove
        | cons r above =>
          have hlt : last < r.1 := by simpa using hhead
          have hle : n ≤ last := by simpa using hlast
          rw [covers, if_pos (by omega)] at habove
          cases habove
      · rw [not_covers_of_apart hrest hn] at habove
        cases habove

theorem isLetter_of_isBlank {ch : Char} (h : isBlank ch = true) : isLetter ch = false :=
  Ranges.not_covers_of_apart (by decide +kernel) h

theorem isDigit_of_isBlank {ch : Char} (h : isBlank ch = true) : isDigit ch = false :=
  Ranges.not_covers_of_apart (by decide +kernel) h

theorem isLetter_of_isDigit {ch : Char} (h : isDigit ch = true) : isLetter ch = false :=
  Ranges.not_covers_of_apart (by decide +kernel) h

end Text

/-- A sign is in no class. -/
theorem Tag.classless_of_ofChar? {ch : Char} {tag : Tag} (h : ofChar? ch = some tag) :
    Text.isBlank ch = false ∧ Text.isLetter ch = false ∧ Text.isDigit ch = false := by
  unfold ofChar? at h
  split at h
  case h_10 => cases h
  all_goals decide +kernel

/-! ## Pieces -/

/-- What the characters of a token of some kind are, and what stands behind them. -/
inductive Spells : Tag → List Char → List Char → Prop
  | sign {tag : Tag} {ch : Char} {rest : List Char} : Tag.ofChar? ch = some tag → Spells tag [ch] rest
  | name {ch : Char} {cs rest : List Char} : Text.isLetter ch = true → (∀ d ∈ cs, Text.isLetterOrDigit d = true) →
      (∀ d ∈ rest.head?, Text.isLetterOrDigit d = false) → Spells .ident (ch :: cs) rest
  | number {ch : Char} {cs rest : List Char} : Text.isDigit ch = true → (∀ d ∈ cs, Text.isDigit d = true) →
      (∀ d ∈ rest.head?, Text.isLetterOrDigit d = false) → Spells .number (ch :: cs) rest

/-- The characters at which no token begins, why, and what stands behind them. -/
inductive Breaks : SyntaxCause → List Char → List Char → Prop
  | unknown {ch : Char} {rest : List Char} : Tag.ofChar? ch = none → Text.isBlank ch = false →
      Text.isLetterOrDigit ch = false → Breaks .unknownCharacter [ch] rest
  | letters {ch d : Char} {cs rest : List Char} : Text.isDigit ch = true → (∀ d ∈ cs, Text.isDigit d = true) →
      rest.head? = some d → Text.isLetter d = true → Breaks .lettersAfterDigits (ch :: cs) rest

/-- All characters are blanks. -/
def Blanks (cs : List Char) : Prop := ∀ ch ∈ cs, Text.isBlank ch = true

/-- A token with the blanks before it. -/
@[ext] structure Piece where
  blank : List Char
  tag : Tag
  body : List Char

namespace Piece

/-- The characters of a piece. -/
def chars (p : Piece) : List Char := p.blank ++ p.body

/-- The token by itself. -/
def word (p : Piece) : Word := ⟨p.tag, String.ofList p.body⟩

end Piece

/-- The characters begin with the pieces, behind which `rest` stands. -/
inductive Divides : List Char → List Piece → List Char → Prop
  | nil {rest : List Char} : Divides rest [] rest
  | cons {p : Piece} {ps : List Piece} {cs rest : List Char} : Blanks p.blank → Spells p.tag p.body cs →
      Divides cs ps rest → Divides (p.chars ++ cs) (p :: ps) rest

/-! ## The first piece is the first lexeme -/

/-- The characters of a class, before one that is of another. -/
theorem takeWhile_dropWhile_append {p : Char → Bool} {cs rest : List Char} (hcs : ∀ d ∈ cs, p d = true)
    (hrest : ∀ d ∈ rest.head?, p d = false) : (cs ++ rest).takeWhile p = cs ∧ (cs ++ rest).dropWhile p = rest := by
  have hnone : rest.takeWhile p = [] ∧ rest.dropWhile p = rest := by
    cases rest with
    | nil => exact ⟨rfl, rfl⟩
    | cons d rest =>
      have hd : ¬ p d = true := by simpa using hrest d rfl
      exact ⟨List.takeWhile_cons_of_neg hd, List.dropWhile_cons_of_neg hd⟩
  rw [List.takeWhile_append_of_pos hcs, List.dropWhile_append_of_pos hcs, hnone.1, hnone.2, List.append_nil]
  exact ⟨rfl, rfl⟩

theorem lexeme_blanks_append {blank : List Char} (hb : Blanks blank) {ch : Char} (hch : Text.isBlank ch = false)
    (cs : List Char) : lexeme (blank ++ ch :: cs) = .ofChar blank ch cs := by
  have hafter : ∀ d ∈ (ch :: cs).head?, Text.isBlank d = false := by simpa using hch
  obtain ⟨htake, hdrop⟩ := takeWhile_dropWhile_append hb hafter
  simp only [lexeme, htake, hdrop]

/-- Only blanks are left. -/
theorem lexeme_of_blanks {cs : List Char} (h : Blanks cs) : lexeme cs = ⟨cs, [], .ok .endOfText, []⟩ := by
  have hdrop : cs.dropWhile Text.isBlank = [] := List.dropWhile_eq_nil_iff.mpr h
  simp only [lexeme, hdrop]

theorem Spells.tag_ne_endOfText {tag : Tag} {body rest : List Char} (h : Spells tag body rest) : tag ≠ .endOfText := by
  cases h with
  | @sign _ ch _ hsign => exact fun he => Tag.ofChar?_ne_endOfText ch (he ▸ hsign)
  | name _ _ _ => simp
  | number _ _ _ => simp

/-- A letter or digit is no blank and no sign. -/
theorem isBlank_ofChar?_of_isLetterOrDigit {ch : Char} (h : Text.isLetterOrDigit ch = true) :
    Text.isBlank ch = false ∧ Tag.ofChar? ch = none := by
  rw [Text.isLetterOrDigit_iff] at h
  constructor
  · by_contra hb
    rw [Bool.not_eq_false] at hb
    simp [Text.isLetter_of_isBlank hb, Text.isDigit_of_isBlank hb] at h
  · cases hs : Tag.ofChar? ch with
    | none => rfl
    | some tag => simp [Tag.classless_of_ofChar? hs] at h

/-- **The first piece of a text is its first lexeme.** -/
theorem lexeme_of_spells {p : Piece} (hb : Blanks p.blank) {rest : List Char} (h : Spells p.tag p.body rest) :
    lexeme (p.chars ++ rest) = ⟨p.blank, p.body, .ok p.tag, rest⟩ := by
  obtain ⟨blank, tag, body⟩ := p
  rw [Piece.chars, List.append_assoc]
  simp only at hb h ⊢
  cases h with
  | sign hsign =>
    obtain ⟨hblank, -⟩ := Tag.classless_of_ofChar? hsign
    rw [List.singleton_append, lexeme_blanks_append hb hblank]
    simp only [Lexeme.ofChar, hsign]
  | name hletter hcs hrest =>
    obtain ⟨hblank, hsign⟩ := isBlank_ofChar?_of_isLetterOrDigit (Text.isLetterOrDigit_iff.mpr (.inl hletter))
    obtain ⟨htake, hdrop⟩ := takeWhile_dropWhile_append hcs hrest
    rw [List.cons_append, lexeme_blanks_append hb hblank]
    simp only [Lexeme.ofChar, hsign, hletter, if_true, htake, hdrop]
  | @number _ _ rest hdigit hcs hrest =>
    obtain ⟨hblank, hsign⟩ := isBlank_ofChar?_of_isLetterOrDigit (Text.isLetterOrDigit_iff.mpr (.inr hdigit))
    have hafter : ∀ d ∈ rest.head?, Text.isLetter d = false ∧ Text.isDigit d = false := by
      simpa [Text.isLetterOrDigit] using hrest
    obtain ⟨htake, hdrop⟩ := takeWhile_dropWhile_append hcs fun d hd => (hafter d hd).2
    have hnone : rest.head?.any Text.isLetter = false := by
      rw [Option.any_eq_false]
      exact fun d hd => by simpa using (hafter d hd).1
    rw [List.cons_append, lexeme_blanks_append hb hblank]
    simp [Lexeme.ofChar, hsign, Text.isLetter_of_isDigit hdigit, hdigit, htake, hdrop, hnone]

/-- Where no token begins, the first lexeme says why. -/
theorem lexeme_of_breaks {blank : List Char} (hb : Blanks blank) {cause : SyntaxCause} {body rest : List Char}
    (h : Breaks cause body rest) : lexeme (blank ++ (body ++ rest)) = ⟨blank, body, .error cause, rest⟩ := by
  cases h with
  | @unknown ch rest hsign hblank hother =>
    have hclass : Text.isLetter ch = false ∧ Text.isDigit ch = false := by simpa [Text.isLetterOrDigit] using hother
    rw [List.singleton_append, lexeme_blanks_append hb hblank]
    simp [Lexeme.ofChar, hsign, hclass]
  | @letters ch d cs rest hdigit hcs hhead hletter =>
    obtain ⟨hblank, hsign⟩ := isBlank_ofChar?_of_isLetterOrDigit (Text.isLetterOrDigit_iff.mpr (.inr hdigit))
    have hafter : ∀ x ∈ rest.head?, Text.isDigit x = false := by
      intro x hx
      obtain rfl : d = x := Option.some.inj (hhead.symm.trans hx)
      by_contra hx
      rw [Bool.not_eq_false] at hx
      rw [Text.isLetter_of_isDigit hx] at hletter
      cases hletter
    obtain ⟨htake, hdrop⟩ := takeWhile_dropWhile_append hcs hafter
    rw [List.cons_append, lexeme_blanks_append hb hblank]
    simp [Lexeme.ofChar, hsign, Text.isLetter_of_isDigit hdigit, hdigit, htake, hdrop, hhead, hletter]

/-! ## A text divides in one way -/

/-- All of a text: its pieces, and the blanks behind them. -/
structure Division where
  pieces : List Piece
  last : List Char

/-- The characters are those of the division. -/
def IsDivision (cs : List Char) (d : Division) : Prop := Divides cs d.pieces d.last ∧ Blanks d.last

theorem IsDivision.nil {cs : List Char} (h : Blanks cs) : IsDivision cs ⟨[], cs⟩ := ⟨.nil, h⟩

/-- **A text divides in one way.** -/
theorem IsDivision.unique {cs : List Char} {d d' : Division} (h : IsDivision cs d) (h' : IsDivision cs d') :
    d = d' := by
  obtain ⟨ps, last⟩ := d
  obtain ⟨ps', last'⟩ := d'
  obtain ⟨hdiv, hlast⟩ := h
  obtain ⟨hdiv', hlast'⟩ := h'
  simp only at hdiv hlast hdiv' hlast'
  induction hdiv generalizing ps' with
  | nil =>
    cases hdiv' with
    | nil => rfl
    | cons hb hs _ =>
      have hlex := lexeme_of_spells hb hs
      rw [lexeme_of_blanks hlast] at hlex
      obtain ⟨-, -, hkind, -⟩ := Lexeme.mk.inj hlex
      exact absurd (Except.ok.inj hkind).symm hs.tag_ne_endOfText
  | @cons p ps cs rest hb hs hrest ih =>
    have hlex := lexeme_of_spells hb hs
    generalize p.chars ++ cs = text at hdiv' hlex
    cases hdiv' with
    | nil =>
      rw [lexeme_of_blanks hlast'] at hlex
      obtain ⟨-, -, hkind, -⟩ := Lexeme.mk.inj hlex
      exact absurd (Except.ok.inj hkind).symm hs.tag_ne_endOfText
    | @cons p' ps' cs' _ hb' hs' hrest' =>
      rw [lexeme_of_spells hb' hs'] at hlex
      obtain ⟨hblank, hbody, hkind, rfl⟩ := Lexeme.mk.inj hlex
      obtain rfl : p' = p := Piece.ext hblank (Except.ok.inj hkind) hbody
      obtain ⟨hps, hlasts⟩ := Division.mk.inj (ih ps' hlast hrest')
      rw [hps, hlasts]

/-! ## How far a text divides -/

/-- A character that is no blank begins a token, or something that is none. -/
theorem spells_or_breaks {ch : Char} (hch : Text.isBlank ch = false) (cs : List Char) :
    (∃ tag body rest, ch :: cs = body ++ rest ∧ Spells tag body rest) ∨
      ∃ cause body rest, ch :: cs = body ++ rest ∧ Breaks cause body rest := by
  have hsplit : ∀ p : Char → Bool, ch :: cs = ch :: cs.takeWhile p ++ cs.dropWhile p := fun p => by
    rw [List.cons_append, List.takeWhile_append_dropWhile]
  have htake : ∀ p : Char → Bool, ∀ d ∈ cs.takeWhile p, p d = true := fun p d => List.mem_takeWhile_imp
  have hdrop : ∀ p : Char → Bool, ∀ d ∈ (cs.dropWhile p).head?, p d = false := by
    intro p d hd
    have := List.head?_dropWhile_not p cs
    simpa [Option.mem_def.mp hd] using this
  cases hsign : Tag.ofChar? ch with
  | some tag => exact .inl ⟨tag, [ch], cs, rfl, .sign hsign⟩
  | none =>
    by_cases hletter : Text.isLetter ch = true
    · exact .inl ⟨.ident, _, _, hsplit Text.isLetterOrDigit, .name hletter (htake _) (hdrop _)⟩
    · by_cases hdigit : Text.isDigit ch = true
      · cases hhead : (cs.dropWhile Text.isDigit).head? with
        | none =>
          exact .inl ⟨.number, _, _, hsplit Text.isDigit, .number hdigit (htake _) (by simp [hhead])⟩
        | some d =>
          by_cases hd : Text.isLetter d = true
          · exact .inr ⟨_, _, _, hsplit Text.isDigit, .letters hdigit (htake _) hhead hd⟩
          · have hafter : Text.isDigit d = false := hdrop Text.isDigit d hhead
            refine .inl ⟨.number, _, _, hsplit Text.isDigit, .number hdigit (htake _) ?_⟩
            simp [hhead, Text.isLetterOrDigit, hd, hafter]
      · exact .inr ⟨_, [ch], cs, rfl, .unknown hsign hch (by simp [Text.isLetterOrDigit, hletter, hdigit])⟩

theorem Spells.ne_nil {tag : Tag} {body rest : List Char} (h : Spells tag body rest) : body ≠ [] := by
  cases h <;> simp

/-- **How far a text divides**: to its end, or to where no token begins. -/
theorem exists_divides (cs : List Char) :
    (∃ d, IsDivision cs d) ∨
      ∃ ps blank cause body rest, Divides cs ps (blank ++ (body ++ rest)) ∧ Blanks blank ∧ Breaks cause body rest := by
  generalize hn : cs.length = n
  induction n using Nat.strongRecOn generalizing cs with
  | _ n ih =>
    have hparts := List.takeWhile_append_dropWhile (p := Text.isBlank) (l := cs)
    have hblanks : Blanks (cs.takeWhile Text.isBlank) := fun ch => List.mem_takeWhile_imp
    cases hdrop : cs.dropWhile Text.isBlank with
    | nil =>
      rw [hdrop, List.append_nil] at hparts
      exact .inl ⟨_, IsDivision.nil (hparts ▸ hblanks)⟩
    | cons ch more =>
      have hch : Text.isBlank ch = false := by
        simpa [hdrop] using List.head?_dropWhile_not Text.isBlank cs
      rw [hdrop] at hparts
      generalize cs.takeWhile Text.isBlank = blank at hparts hblanks
      rcases spells_or_breaks hch more with ⟨tag, body, rest, hbody, hs⟩ | ⟨cause, body, rest, hbody, hbreaks⟩
      · have hcs : cs = (Piece.mk blank tag body).chars ++ rest := by
          rw [← hparts, hbody, Piece.chars, List.append_assoc]
        have hpos : 0 < body.length := List.length_pos_iff.mpr hs.ne_nil
        have hlt : rest.length < n := by
          rw [← hn, hcs, Piece.chars]
          simp only [List.length_append]
          omega
        rw [hcs]
        rcases ih _ hlt rest rfl with ⟨d, hdivides, hlast⟩ | ⟨ps, blank', cause, body', after, hdivides, hrest⟩
        · exact .inl ⟨⟨⟨blank, tag, body⟩ :: d.pieces, d.last⟩, .cons hblanks hs hdivides, hlast⟩
        · exact .inr ⟨⟨blank, tag, body⟩ :: ps, blank', cause, body', after, .cons hblanks hs hdivides, hrest⟩
      · exact .inr ⟨[], blank, cause, body, rest, by rw [← hparts, hbody]; exact .nil, hblanks, hbreaks⟩

/-! ## The tokens are the pieces -/

/-- The characters of pieces. -/
def charsOf (ps : List Piece) : List Char := ps.flatMap Piece.chars

/-- The tokens that pieces are, one after another from a cursor on. -/
def placed (c : Cursor) : List Piece → List Token
  | [] => []
  | p :: ps => ⟨p.tag, c.past p.blank, c.past p.chars⟩ :: placed (c.past p.chars) ps

theorem Divides.chars {cs rest : List Char} {ps : List Piece} (h : Divides cs ps rest) : cs = charsOf ps ++ rest := by
  induction h with
  | nil => rfl
  | cons _ _ _ ih =>
    rw [charsOf, List.flatMap_cons, List.append_assoc, ← charsOf, ← ih]

variable {c : Cursor}

/-- **The tokens behind pieces** come after those that the pieces are. -/
theorem ofCursor_of_divides (hc : c.Bounded) {ps : List Piece} {rest : List Char} (h : Divides c.window ps rest) :
    Lexed.ofCursor c = .prepend (placed c ps) (.ofCursor (c.past (charsOf ps))) := by
  generalize hcs : c.window = cs at h
  induction h generalizing c with
  | nil => rfl
  | @cons p ps cs rest hb hs _ ih =>
    have hlex := lexeme_of_spells hb hs
    rw [← hcs] at hlex
    have hwindow : (c.past p.chars).window = cs := Cursor.window_past hcs
    rw [Lexed.ofCursor_of_ok hc (by rw [hlex]), if_neg hs.tag_ne_endOfText]
    simp only [Lexeme.start, Lexeme.follow, hlex, ← Cursor.past_append]
    rw [← Piece.chars, ih (hc.past _) hwindow, ← Cursor.past_append]
    rfl

theorem words_placed {ps : List Piece} {rest : List Char} (h : Divides c.window ps rest) :
    (placed c ps).map Token.word = ps.map Piece.word := by
  generalize hcs : c.window = cs at h
  induction h generalizing c with
  | nil => rfl
  | @cons p ps cs rest hb hs _ ih =>
    have hstart : (c.past p.blank).window = p.body ++ cs :=
      Cursor.window_past (by rw [hcs, Piece.chars, List.append_assoc])
    have hlength : (c.past p.chars).index - (c.past p.blank).index = p.body.length := by
      rw [Cursor.past_index, Cursor.past_index, Piece.chars, List.length_append]
      omega
    have htext : (Token.mk p.tag (c.past p.blank) (c.past p.chars)).text = String.ofList p.body := by
      rw [Token.text, Cursor.take_eq, hstart, hlength, List.take_left]
    rw [placed, List.map_cons, ih (Cursor.window_past hcs), List.map_cons, Token.word, htext, Piece.word]

/-- Only blanks are left. -/
theorem ofCursor_of_blanks (hc : c.Bounded) (h : Blanks c.window) :
    Lexed.ofCursor c = .done ⟨.endOfText, c.past c.window, c.past c.window⟩ := by
  have hlex := lexeme_of_blanks h
  rw [Lexed.ofCursor_of_ok hc (by rw [hlex]), if_pos rfl]
  simp only [Lexeme.start, Lexeme.follow, hlex, Cursor.past_nil]

/-- No token begins behind the blanks. -/
theorem ofCursor_of_breaks (hc : c.Bounded) {blank body rest : List Char} {cause : SyntaxCause}
    (hw : c.window = blank ++ (body ++ rest)) (hb : Blanks blank) (h : Breaks cause body rest) :
    Lexed.ofCursor c = .broken ((c.past (blank ++ body)).malformed cause) := by
  have hlex := lexeme_of_breaks hb h
  rw [← hw] at hlex
  rw [Lexed.ofCursor_of_error hc (by rw [hlex])]
  simp only [Lexeme.start, Lexeme.follow, hlex, ← Cursor.past_append]

/-- A cursor to a text that divides reads its pieces and the end. -/
theorem ofCursor_of_isDivision (hc : c.Bounded) {d : Division} (h : IsDivision c.window d) :
    Lexed.ofCursor c =
      .prepend (placed c d.pieces) (.done ⟨.endOfText, c.past c.window, c.past c.window⟩) := by
  obtain ⟨hdivides, hlast⟩ := h
  have hchars := hdivides.chars
  have hwindow : (c.past (charsOf d.pieces)).window = d.last := Cursor.window_past hchars
  have hend : (c.past (charsOf d.pieces)).past d.last = c.past c.window := by
    rw [← Cursor.past_append, ← hchars]
  rw [ofCursor_of_divides hc hdivides, ofCursor_of_blanks (hc.past _) (by rwa [hwindow]), hwindow, hend]

/-- A cursor to a text that does not divide reads the pieces of its beginning and stops. -/
theorem ofCursor_of_divides_breaks (hc : c.Bounded) {ps : List Piece} {blank body rest : List Char}
    {cause : SyntaxCause} (h : Divides c.window ps (blank ++ (body ++ rest))) (hb : Blanks blank)
    (hbreaks : Breaks cause body rest) :
    Lexed.ofCursor c =
      .prepend (placed c ps) (.broken ((c.past (charsOf ps ++ (blank ++ body))).malformed cause)) := by
  have hwindow : (c.past (charsOf ps)).window = blank ++ (body ++ rest) := Cursor.window_past h.chars
  rw [ofCursor_of_divides hc h, ofCursor_of_breaks (hc.past _) hwindow hb hbreaks, ← Cursor.past_append]

/-- **The tokens after a cursor are the one division of what it sees.** If that divides, the tokens are the pieces, each
from behind its blanks to its end, and the end of the text where the bound is. If it does not, the tokens are the pieces
of its beginning, and reading fails behind the one character of no class, or behind the digits that a letter follows. -/
theorem tokens_divide (hc : c.Bounded) (hle : c.index ≤ c.limit) :
    ((Lexed.ofCursor c).failure? = none ↔ ∃ d, IsDivision c.window d) ∧
    (∀ d, IsDivision c.window d →
      (∀ d', IsDivision c.window d' → d' = d) ∧
      (Lexed.ofCursor c).tokens = placed c d.pieces ++ [⟨.endOfText, c.past c.window, c.past c.window⟩] ∧
      (Lexed.ofCursor c).words = d.pieces.map Piece.word ++ [⟨.endOfText, ""⟩] ∧
      (c.past c.window).index = c.limit) ∧
    ∀ e, (Lexed.ofCursor c).failure? = some e →
      ∃ ps blank cause body rest, Divides c.window ps (blank ++ (body ++ rest)) ∧ Blanks blank ∧
        Breaks cause body rest ∧ (Lexed.ofCursor c).tokens = placed c ps ∧
        (Lexed.ofCursor c).words = ps.map Piece.word ∧
        e = (c.past (charsOf ps ++ (blank ++ body))).malformed cause := by
  refine ⟨⟨fun hnone => ?_, ?_⟩, fun d hd => ⟨fun d' hd' => hd'.unique hd, ?_⟩, fun e he => ?_⟩
  · rcases exists_divides c.window with hd | ⟨ps, blank, cause, body, rest, hdivides, hb, hbreaks⟩
    · exact hd
    · rw [ofCursor_of_divides_breaks hc hdivides hb hbreaks, Lexed.failure?_prepend] at hnone
      cases hnone
  · rintro ⟨d, hd⟩
    rw [ofCursor_of_isDivision hc hd, Lexed.failure?_prepend]
    rfl
  · have hlength : c.window.length = c.limit - c.index := by
      have hsize : c.limit ≤ c.text.toList.length := hc
      rw [Cursor.window_eq, List.length_drop, List.length_take]
      omega
    rw [ofCursor_of_isDivision hc hd, Lexed.tokens_prepend, Lexed.words_prepend, words_placed hd.1, Cursor.past_index]
    refine ⟨rfl, ?_, by omega⟩
    simp [Token.word, Token.text, Cursor.take_eq]
  · rcases exists_divides c.window with ⟨d, hd⟩ | ⟨ps, blank, cause, body, rest, hdivides, hb, hbreaks⟩
    · rw [ofCursor_of_isDivision hc hd, Lexed.failure?_prepend] at he
      cases he
    · rw [ofCursor_of_divides_breaks hc hdivides hb hbreaks] at he ⊢
      rw [Lexed.failure?_prepend] at he
      refine ⟨ps, blank, cause, body, rest, hdivides, hb, hbreaks, ?_, ?_, (Option.some.inj he).symm⟩
      · rw [Lexed.tokens_prepend, Lexed.tokens, List.append_nil]
      · rw [Lexed.words_prepend, words_placed hdivides]
        exact List.append_nil _

/-- Up to a bound a text divides into a name, a sign and two numbers, of which the first is behind a line feed. Without
the bound a letter follows the last digit, and the text does not divide. -/
theorem tokens_divide_bounded :
    ∃ c d : Cursor, c.Bounded ∧ c.index ≤ c.limit ∧ d.Bounded ∧ d.index ≤ d.limit ∧
      (∃ division, IsDivision c.window division ∧ division.pieces.map Piece.word =
        [⟨.ident, "a1"⟩, ⟨.sumSign, "+"⟩, ⟨.number, "٣"⟩, ⟨.number, "2"⟩]) ∧
      (Lexed.ofCursor d).failure? = some (.malformed ⟨⟨9, 5, 4⟩, .lettersAfterDigits⟩) ∧
      ¬ ∃ division, IsDivision d.window division := by
  let c : Cursor :=
    { index := 1, row := 4, column := 7, text := #['?', 'a', '1', ' ', '+', '\n', '٣', ' ', '2', 'b'], stop := some 9 }
  let d : Cursor := { c with stop := none }
  have hc : c.Bounded := Nat.le_succ 9
  have hd : d.Bounded := Nat.le_refl 10
  have hnone : (Lexed.ofCursor c).failure? = none := by decide +kernel
  have hwords : (Lexed.ofCursor c).words =
      [⟨.ident, "a1"⟩, ⟨.sumSign, "+"⟩, ⟨.number, "٣"⟩, ⟨.number, "2"⟩] ++ [⟨.endOfText, ""⟩] := by decide +kernel
  have hfailure : (Lexed.ofCursor d).failure? = some (.malformed ⟨⟨9, 5, 4⟩, .lettersAfterDigits⟩) := by
    decide +kernel
  obtain ⟨hiff, hread, -⟩ := tokens_divide hc (by decide)
  obtain ⟨division, hdivision⟩ := hiff.mp hnone
  obtain ⟨-, -, hpieces, -⟩ := hread _ hdivision
  rw [hwords] at hpieces
  obtain ⟨hiff', -, -⟩ := tokens_divide hd (by decide)
  refine ⟨c, d, hc, by decide, hd, by decide, ⟨division, hdivision, ?_⟩, hfailure, fun hdivides => ?_⟩
  · exact (List.append_cancel_right hpieces).symm
  · rw [hiff'.mpr hdivides] at hfailure
    cases hfailure

end EvalOrder
