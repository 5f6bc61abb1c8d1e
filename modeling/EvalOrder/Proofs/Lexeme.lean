import EvalOrder.Source.Line
import EvalOrder.Source.Token
import Mathlib.Data.List.DropRight

/-!
# Lexemes

What a cursor reads depends on its window alone. `lexeme` takes the first token of a list of characters
apart: the blanks before it, its own characters, its kind or what is wrong with it, and the characters that
are left; `lexemes` repeats it up to the end or to the first failure.

Results:
* `scan_eq`: scanning a bounded cursor reads the first lexeme of its window.
* `ofCursor_induction`: what holds of the tokens after a bounded cursor, by the lexemes of its window.
* `words_ofCursor`: kind and text of these tokens are those of the window by itself.
* `outline_dropWhile`, `outline_append_lineFeed`: blanks in front and a line feed behind change no word.
* `start_of_end?`: the end of the text is found where the window ends.
-/

namespace EvalOrder

/-- The front of a list of characters: blanks, the characters of a token, its kind, and what is left. -/
structure Lexeme where
  blank : List Char
  body : List Char
  kind : Except SyntaxCause Tag
  rest : List Char

/-- A token by itself: its kind and its text. -/
structure Word where
  tag : Tag
  text : String
  deriving DecidableEq, Repr

namespace Lexeme

/-- The lexeme that begins with the character `ch`, after `blank` and before `cs`. -/
def ofChar (blank : List Char) (ch : Char) (cs : List Char) : Lexeme :=
  match Tag.ofChar? ch with
  | some tag => ⟨blank, [ch], .ok tag, cs⟩
  | none =>
    if Text.isLetter ch then
      ⟨blank, ch :: cs.takeWhile Text.isLetterOrDigit, .ok .ident, cs.dropWhile Text.isLetterOrDigit⟩
    else if Text.isDigit ch then
      let kind := if (cs.dropWhile Text.isDigit).head?.any Text.isLetter then
        .error .lettersAfterDigits else .ok .number
      ⟨blank, ch :: cs.takeWhile Text.isDigit, kind, cs.dropWhile Text.isDigit⟩
    else ⟨blank, [ch], .error .unknownCharacter, cs⟩

/-- The place after the blanks, for a cursor before them. -/
def start (l : Lexeme) (c : Cursor) : Cursor := c.past l.blank

/-- The place after the characters of the token. -/
def follow (l : Lexeme) (c : Cursor) : Cursor := (l.start c).past l.body

/-- The token that the lexeme is at a cursor. -/
def tokenAt (l : Lexeme) (c : Cursor) : Except Failure Token :=
  match l.kind with
  | .ok tag => .ok ⟨tag, l.start c, l.follow c⟩
  | .error cause => .error ((l.follow c).malformed cause)

end Lexeme

/-- The first lexeme of a list of characters. -/
def lexeme (cs : List Char) : Lexeme :=
  match cs.dropWhile Text.isBlank with
  | [] => ⟨cs, [], .ok .endOfText, []⟩
  | ch :: more => .ofChar (cs.takeWhile Text.isBlank) ch more

/-! ## The parts of a lexeme -/

theorem Tag.ofChar?_ne_endOfText (ch : Char) : Tag.ofChar? ch ≠ some .endOfText := by
  unfold Tag.ofChar?
  split <;> simp

namespace Lexeme

@[simp] theorem ofChar_blank (blank : List Char) (ch : Char) (cs : List Char) :
    (ofChar blank ch cs).blank = blank := by
  unfold ofChar
  repeat' split
  all_goals rfl

theorem ofChar_body_rest (blank : List Char) (ch : Char) (cs : List Char) :
    (ofChar blank ch cs).body ++ (ofChar blank ch cs).rest = ch :: cs := by
  unfold ofChar
  repeat' split
  all_goals simp [List.takeWhile_append_dropWhile]

theorem ofChar_body_ne_nil (blank : List Char) (ch : Char) (cs : List Char) :
    (ofChar blank ch cs).body ≠ [] := by
  unfold ofChar
  repeat' split
  all_goals simp

theorem ofChar_kind_ne_endOfText (blank : List Char) (ch : Char) (cs : List Char) :
    (ofChar blank ch cs).kind ≠ .ok .endOfText := by
  unfold ofChar
  split
  · rename_i tag h
    intro he
    exact Tag.ofChar?_ne_endOfText ch (by rw [h, Except.ok.inj he])
  · repeat' split
    all_goals simp

end Lexeme

/-- A lexeme loses nothing. -/
theorem lexeme_parts (cs : List Char) :
    (lexeme cs).blank ++ ((lexeme cs).body ++ (lexeme cs).rest) = cs := by
  unfold lexeme
  split
  · simp
  · rename_i ch more h
    rw [Lexeme.ofChar_blank, Lexeme.ofChar_body_rest, ← h, List.takeWhile_append_dropWhile]

theorem lexeme_blank (cs : List Char) : (lexeme cs).blank = cs.takeWhile Text.isBlank := by
  unfold lexeme
  split
  · rename_i hd
    have hparts := List.takeWhile_append_dropWhile (p := Text.isBlank) (l := cs)
    rw [hd, List.append_nil] at hparts
    exact hparts.symm
  · exact Lexeme.ofChar_blank _ _ _

/-- The end of the text is read when only blanks are left. -/
theorem lexeme_of_endOfText {cs : List Char} (h : (lexeme cs).kind = .ok .endOfText) :
    lexeme cs = ⟨cs, [], .ok .endOfText, []⟩ := by
  unfold lexeme at h ⊢
  split
  · rfl
  · rename_i ch more hd
    rw [hd] at h
    exact absurd h (Lexeme.ofChar_kind_ne_endOfText _ _ _)

theorem length_rest_lt {cs : List Char} (h : (lexeme cs).kind ≠ .ok .endOfText) :
    (lexeme cs).rest.length < cs.length := by
  have hne : (lexeme cs).body ≠ [] := by
    unfold lexeme at h ⊢
    split
    · rename_i hd
      rw [hd] at h
      exact absurd rfl h
    · exact Lexeme.ofChar_body_ne_nil _ _ _
  have hlen := congrArg List.length (lexeme_parts cs)
  have hpos := List.length_pos_iff.mpr hne
  simp only [List.length_append] at hlen
  omega

/-! ## Scanning reads a lexeme -/

namespace Cursor

theorem Bounded.past {c : Cursor} (h : c.Bounded) (cs : List Char) : (c.past cs).Bounded := h

theorem skipWhile_eq {c : Cursor} (h : c.Bounded) (p : Char → Bool) :
    c.skipWhile p = .ok (c.past (c.window.takeWhile p)) := by
  simp [skipWhile, peek_eq (h.past _), bind, Except.bind]

theorem advance_eq {c : Cursor} (h : c.Bounded) :
    c.advance = .ok (c.past c.window.head?.toList) := by
  unfold advance
  rw [peek_eq h]
  cases c.window.head? <;> rfl

theorem satisfies_eq {c : Cursor} (h : c.Bounded) (p : Char → Bool) :
    c.satisfies p = .ok (c.window.head?.any p) := by
  simp [satisfies, peek_eq h, bind, Except.bind, pure, Except.pure]

/-- After skipping a class the rest of the window is left. -/
theorem window_past_takeWhile (c : Cursor) (p : Char → Bool) :
    (c.past (c.window.takeWhile p)).window = c.window.dropWhile p :=
  window_past List.takeWhile_append_dropWhile.symm

theorem take_eq (c : Cursor) (n : Nat) : c.take n = String.ofList (c.window.take n) := by
  unfold take
  rw [window_eq, Array.toList_extract, List.take_drop, List.take_take, List.drop_take]

theorem ofString_window (s : String) : (ofString s).window = s.toList := by
  simp [window_eq, ofString, limit]

theorem ofString_bounded (s : String) : (ofString s).Bounded := by
  simp [Bounded, ofString, limit]

end Cursor

namespace Token

/-- The token at a character is the lexeme there. -/
theorem scanAt_eq (blank : List Char) {start : Cursor} {ch : Char} {cs : List Char} (h : start.Bounded)
    (hw : start.window = ch :: cs) :
    scanAt start (start.past [ch]) ch =
      match (Lexeme.ofChar blank ch cs).kind with
      | .ok tag => .ok ⟨tag, start, start.past (Lexeme.ofChar blank ch cs).body⟩
      | .error cause => .error ((start.past (Lexeme.ofChar blank ch cs).body).malformed cause) := by
  have hnext : (start.past [ch]).window = cs := Cursor.window_past (by simp [hw])
  have hpast : ∀ ds, (start.past [ch]).past ds = start.past (ch :: ds) := fun ds =>
    (Cursor.past_append start [ch] ds).symm
  have hskip : ∀ p, (start.past [ch]).skipWhile p = .ok (start.past (ch :: cs.takeWhile p)) := by
    intro p
    rw [Cursor.skipWhile_eq (h.past _), hnext, hpast]
  have hleft : (start.past (ch :: cs.takeWhile Text.isDigit)).window = cs.dropWhile Text.isDigit := by
    rw [← hpast, ← hnext, Cursor.window_past_takeWhile]
  unfold scanAt Lexeme.ofChar
  cases ht : Tag.ofChar? ch with
  | some tag => rfl
  | none =>
    by_cases hl : Text.isLetter ch = true
    · simp only [hl, if_true, hskip]
      rfl
    · by_cases hd : Text.isDigit ch = true
      · simp only [hl, hd, if_true, hskip, bind, Except.bind,
          Cursor.satisfies_eq (h.past _), hleft]
        by_cases ha : (cs.dropWhile Text.isDigit).head?.any Text.isLetter = true
        · simp [ha]
        · simp [ha]
      · simp [hl, hd]

/-- Scanning a bounded cursor reads the first lexeme of its window. -/
theorem scan_eq {c : Cursor} (h : c.Bounded) : scan c = (lexeme c.window).tokenAt c := by
  have hleft := Cursor.window_past_takeWhile c Text.isBlank
  have hb := h.past (c.window.takeWhile Text.isBlank)
  unfold scan lexeme
  simp only [Cursor.skipWhile_eq h, Cursor.advance_eq hb, Cursor.peek_eq hb, hleft, bind, Except.bind]
  cases hd : c.window.dropWhile Text.isBlank with
  | nil =>
    have hall : c.window.takeWhile Text.isBlank = c.window := by
      have hparts := List.takeWhile_append_dropWhile (p := Text.isBlank) (l := c.window)
      rwa [hd, List.append_nil] at hparts
    simp [Lexeme.tokenAt, Lexeme.start, Lexeme.follow, hall]
  | cons ch more =>
    simp only [List.head?_cons, Option.toList_some]
    rw [scanAt_eq (c.window.takeWhile Text.isBlank) hb (hleft.trans hd)]
    simp only [Lexeme.tokenAt, Lexeme.start, Lexeme.follow, Lexeme.ofChar_blank]

end Token

/-! ## A text as lexemes -/

namespace Lexeme

/-- Nothing is read after the lexeme: the text ends there, or no token begins. -/
def isLast (l : Lexeme) : Bool :=
  match l.kind with
  | .ok tag => tag = .endOfText
  | .error _ => true

theorem kind_ne_of_not_isLast {l : Lexeme} (h : l.isLast = false) : l.kind ≠ .ok .endOfText := by
  intro hk
  simp [isLast, hk] at h

end Lexeme

/-- The lexemes of a list of characters, up to the end or to the first that is no token. -/
def lexemes (cs : List Char) : List Lexeme :=
  if _h : (lexeme cs).isLast then [lexeme cs] else lexeme cs :: lexemes (lexeme cs).rest
termination_by cs.length
decreasing_by
  exact length_rest_lt (Lexeme.kind_ne_of_not_isLast (by simpa using _h))

theorem lexemes_eq (cs : List Char) :
    lexemes cs = if (lexeme cs).isLast then [lexeme cs] else lexeme cs :: lexemes (lexeme cs).rest := by
  rw [lexemes]
  simp

/-- After the first token of a window its rest is left. -/
theorem Lexeme.window_follow (c : Cursor) :
    ((lexeme c.window).follow c).window = (lexeme c.window).rest := by
  have hparts := lexeme_parts c.window
  unfold follow start
  rw [← Cursor.past_append]
  exact Cursor.window_past (by rw [List.append_assoc, hparts])

theorem Lexeme.follow_bounded {c : Cursor} (h : c.Bounded) (l : Lexeme) : (l.follow c).Bounded := h

/-- **Induction over the tokens after a bounded cursor**: the first lexeme of the window is no token, or the
end of the text, or a token with those after it. -/
theorem ofCursor_induction {P : Cursor → Lexed → Prop}
    (broken : ∀ (c : Cursor) (cause : SyntaxCause), c.Bounded → (lexeme c.window).kind = .error cause →
      P c (.broken (((lexeme c.window).follow c).malformed cause)))
    (done : ∀ c : Cursor, c.Bounded → (lexeme c.window).kind = .ok .endOfText →
      P c (.done ⟨.endOfText, c.past c.window, c.past c.window⟩))
    (token : ∀ (c : Cursor) (tag : Tag), c.Bounded → (lexeme c.window).kind = .ok tag → tag ≠ .endOfText →
      P ((lexeme c.window).follow c) (.ofCursor ((lexeme c.window).follow c)) →
      P c (.token ⟨tag, (lexeme c.window).start c, (lexeme c.window).follow c⟩
        (.ofCursor ((lexeme c.window).follow c))))
    (c : Cursor) (h : c.Bounded) : P c (.ofCursor c) := by
  generalize hn : c.window.length = n
  induction n using Nat.strongRecOn generalizing c with
  | _ n ih =>
    have hscan := Token.scan_eq h
    unfold Lexeme.tokenAt at hscan
    rw [Lexed.ofCursor]
    cases hk : (lexeme c.window).kind with
    | error cause =>
      rw [hk] at hscan
      split
      · rename_i e he
        rw [hscan] at he
        rw [← Except.error.inj he]
        exact broken c cause h hk
      · rename_i t ht
        rw [hscan] at ht
        cases ht
    | ok tag =>
      rw [hk] at hscan
      split
      · rename_i e he
        rw [hscan] at he
        cases he
      · rename_i t ht
        rw [hscan] at ht
        obtain rfl := Except.ok.inj ht
        by_cases htag : tag = .endOfText
        · subst htag
          have hend := lexeme_of_endOfText hk
          simp only [dite_true, Lexeme.start, Lexeme.follow, hend, Cursor.past_nil]
          exact done c h hk
        · have hlt : (lexeme c.window).rest.length < c.window.length :=
            length_rest_lt (by rw [hk]; simpa using htag)
          rw [← Lexeme.window_follow] at hlt
          simp only [htag, dite_false]
          exact token c tag h hk htag (ih _ (hn ▸ hlt) _ (Lexeme.follow_bounded h _) rfl)

/-! ## What a text says, wherever it stands -/

/-- The token by itself, or what is wrong. -/
def Lexeme.word (l : Lexeme) : Except SyntaxCause Word :=
  l.kind.map fun tag => ⟨tag, String.ofList l.body⟩

/-- A list of characters as words, up to the end or to what is wrong. -/
def outline (cs : List Char) : List (Except SyntaxCause Word) := (lexemes cs).map Lexeme.word

/-- A token without its place. -/
def Token.word (t : Token) : Word := ⟨t.tag, t.text⟩

namespace Lexed

/-- The tokens without their places, the end of the text last. -/
def words (s : Lexed) : List Word := s.tokens.map Token.word

/-- Only the last token is the end of the text, and only the text can be wrong. -/
def Proper : Lexed → Prop
  | token t rest => t.tag ≠ .endOfText ∧ rest.Proper
  | done t => t.tag = .endOfText
  | broken e => ∃ m, e = .malformed m

@[simp] theorem words_token (t : Token) (rest : Lexed) : (token t rest).words = t.word :: rest.words := rfl

@[simp] theorem words_done (t : Token) : (done t).words = [t.word] := rfl

end Lexed

theorem outline_eq (cs : List Char) :
    outline cs = if (lexeme cs).isLast then [(lexeme cs).word]
      else (lexeme cs).word :: outline (lexeme cs).rest := by
  unfold outline
  rw [lexemes_eq]
  split <;> rfl

theorem outline_of_error {cs : List Char} {cause : SyntaxCause} (h : (lexeme cs).kind = .error cause) :
    outline cs = [.error cause] := by
  simp [outline_eq, Lexeme.isLast, Lexeme.word, h, Except.map]

theorem outline_of_endOfText {cs : List Char} (h : (lexeme cs).kind = .ok .endOfText) :
    outline cs = [.ok ⟨.endOfText, ""⟩] := by
  have hbody : (lexeme cs).body = [] := by rw [lexeme_of_endOfText h]
  simp [outline_eq, Lexeme.isLast, Lexeme.word, h, hbody, Except.map]

theorem outline_of_ok {cs : List Char} {tag : Tag} (h : (lexeme cs).kind = .ok tag)
    (ht : tag ≠ .endOfText) :
    outline cs = .ok ⟨tag, String.ofList (lexeme cs).body⟩ :: outline (lexeme cs).rest := by
  rw [outline_eq]
  simp [Lexeme.isLast, Lexeme.word, h, ht, Except.map]

theorem text_tokenAt {c : Cursor} (tag : Tag) :
    (Token.mk tag ((lexeme c.window).start c) ((lexeme c.window).follow c)).text =
      String.ofList (lexeme c.window).body := by
  have hwindow : ((lexeme c.window).start c).window =
      (lexeme c.window).body ++ (lexeme c.window).rest :=
    Cursor.window_past (lexeme_parts c.window).symm
  simp only [Token.text, Cursor.take_eq, hwindow]
  simp [Lexeme.follow]

/-- The tokens after a bounded cursor say what its window says. -/
theorem words_ofCursor {c : Cursor} (h : c.Bounded) :
    (Lexed.ofCursor c).words = (outline c.window).filterMap Except.toOption := by
  refine ofCursor_induction (P := fun c s => s.words = (outline c.window).filterMap Except.toOption)
    (fun c cause _ hk => ?_) (fun c _ hk => ?_) (fun c tag _ hk ht ih => ?_) c h
  · rw [outline_of_error hk]
    rfl
  · rw [outline_of_endOfText hk]
    simp [Token.word, Token.text, Cursor.take_eq, Except.toOption]
  · rw [outline_of_ok hk ht, Lexed.words_token, ih, Lexeme.window_follow]
    simp [Token.word, text_tokenAt, Except.toOption]

/-- They fail where the window says what is wrong. -/
theorem failure?_ofCursor {c : Cursor} (h : c.Bounded) :
    (Lexed.ofCursor c).failure? = none ↔ ∀ w ∈ outline c.window, w.isOk = true := by
  refine ofCursor_induction
    (P := fun c s => s.failure? = none ↔ ∀ w ∈ outline c.window, w.isOk = true)
    (fun c cause _ hk => ?_) (fun c _ hk => ?_) (fun c tag _ hk ht ih => ?_) c h
  · simp [outline_of_error hk, Lexed.failure?, Except.isOk, Except.toBool]
  · simp [outline_of_endOfText hk, Lexed.failure?, Except.isOk, Except.toBool]
  · rw [Lexeme.window_follow] at ih
    rw [outline_of_ok hk ht, List.forall_mem_cons, ← ih]
    simp [Lexed.failure?, Except.isOk, Except.toBool]

theorem proper_ofCursor {c : Cursor} (h : c.Bounded) : (Lexed.ofCursor c).Proper := by
  refine ofCursor_induction (P := fun _ s => s.Proper)
    (fun c cause _ _ => ⟨_, rfl⟩) (fun c _ _ => rfl) (fun c tag _ _ ht ih => ⟨ht, ih⟩) c h

/-- The end of the text is found where the window ends. -/
theorem start_of_end? {c : Cursor} (h : c.Bounded) {t : Token} (ht : (Lexed.ofCursor c).end? = some t) :
    t.start = c.past c.window := by
  revert t
  refine ofCursor_induction (P := fun c s => ∀ {t : Token}, s.end? = some t → t.start = c.past c.window)
    (fun c cause _ _ t ht => ?_) (fun c _ _ t ht => ?_) (fun c tag _ _ _ ih t ht => ?_) c h
  · cases ht
  · cases ht
    rfl
  · rw [ih ht, Lexeme.window_follow]
    simp only [Lexeme.follow, Lexeme.start, ← Cursor.past_append]
    rw [List.append_assoc, lexeme_parts]

/-! ## Blanks at either end -/

theorem Lexeme.ofChar_of_blank (blank blank' : List Char) (ch : Char) (cs : List Char) :
    ofChar blank ch cs = { ofChar blank' ch cs with blank := blank } := by
  unfold ofChar
  repeat' split
  all_goals rfl

theorem lexeme_dropWhile (cs : List Char) :
    lexeme (cs.dropWhile Text.isBlank) =
      { lexeme cs with blank := (lexeme (cs.dropWhile Text.isBlank)).blank } := by
  unfold lexeme
  rw [List.dropWhile_idempotent]
  cases cs.dropWhile Text.isBlank with
  | nil => rfl
  | cons ch more =>
    simp only [Lexeme.ofChar_blank]
    exact Lexeme.ofChar_of_blank _ _ ch more

/-- Blanks in front change no word. -/
theorem outline_dropWhile (cs : List Char) : outline (cs.dropWhile Text.isBlank) = outline cs := by
  rw [outline_eq, outline_eq cs, lexeme_dropWhile]
  rfl

/-- A line feed behind a character leaves its lexeme as it is and comes last in what is left. -/
theorem Lexeme.ofChar_append_lineFeed (blank : List Char) (ch : Char) (cs : List Char) :
    ofChar blank ch (cs ++ ['\n']) =
      { ofChar blank ch cs with rest := (ofChar blank ch cs).rest ++ ['\n'] } := by
  have htake : ∀ p : Char → Bool, p '\n' = false → (cs ++ ['\n']).takeWhile p = cs.takeWhile p := by
    intro p hp
    rw [List.takeWhile_append]
    split
    · rename_i hl
      rw [(List.takeWhile_sublist p).eq_of_length hl]
      simp [hp]
    · rfl
  have hdrop : ∀ p : Char → Bool, p '\n' = false →
      (cs ++ ['\n']).dropWhile p = cs.dropWhile p ++ ['\n'] := by
    intro p hp
    rw [List.dropWhile_append]
    split
    · rename_i he
      simp [hp, List.isEmpty_iff.mp he]
    · rfl
  have hhead : ∀ ds : List Char, (ds ++ ['\n']).head?.any Text.isLetter = ds.head?.any Text.isLetter := by
    intro ds
    cases ds with
    | nil => decide
    | cons d ds => rfl
  unfold ofChar
  rw [htake _ (by decide), htake _ (by decide), hdrop _ (by decide), hdrop _ (by decide), hhead]
  repeat' split
  all_goals rfl

theorem lexeme_of_not_blank {ch : Char} (cs : List Char) (h : Text.isBlank ch = false) :
    lexeme (ch :: cs) = .ofChar [] ch cs := by
  simp [lexeme, h]

/-- A line feed behind changes no word. -/
theorem outline_append_lineFeed (cs : List Char) : outline (cs ++ ['\n']) = outline cs := by
  generalize hn : cs.length = n
  induction n using Nat.strongRecOn generalizing cs with
  | _ n ih =>
    -- without its blanks a text begins with a token, or the line feed is all that is left of it
    rw [← outline_dropWhile, ← outline_dropWhile cs, List.dropWhile_append]
    cases hd : cs.dropWhile Text.isBlank with
    | nil => rfl
    | cons ch more =>
      have hch : Text.isBlank ch = false := by
        have := List.head_dropWhile_not Text.isBlank (l := cs) (by simp [hd])
        simpa [hd] using this
      have hlt : (Lexeme.ofChar [] ch more).rest.length < n := by
        have hrest : (lexeme (ch :: more)).kind ≠ .ok .endOfText → _ := length_rest_lt
        rw [lexeme_of_not_blank _ hch] at hrest
        have hle := (List.dropWhile_sublist Text.isBlank (l := cs)).length_le
        rw [hd, hn] at hle
        exact Nat.lt_of_lt_of_le (hrest (Lexeme.ofChar_kind_ne_endOfText _ _ _)) hle
      have hrest := ih _ hlt _ rfl
      rw [if_neg (by simp), List.cons_append, outline_eq, outline_eq (ch :: more),
        lexeme_of_not_blank _ hch, lexeme_of_not_blank _ hch, Lexeme.ofChar_append_lineFeed, hrest]
      rfl

end EvalOrder
