import EvalOrder.Source.Cursor

/-!
# Tokens

Model of `Token` and `iter_tokens`. A token is a stretch of text from `start` to `follow` with a tag. Blanks before it
are skipped. A name is a letter followed by letters and digits; a number is a run of decimal digits, after which no
letter may stand; the signs, brackets, comma, semicolon and equals sign (`_SINGLE_CHAR_TAGS`) are tokens by themselves.

`Lexed` is a text seen as tokens: they come one after another until the end of the text, or until a character where no
token begins. A reader that asks for tokens one by one meets the same tokens and the same failure.

Results:
* `scan_progress`: every token but the end of the text moves the cursor on, inside the same bound.
* `Lexed.ofCursor` reads to the end of the text; it ends because of that.
-/

namespace EvalOrder

/-- A token: its kind, where it starts and the place after it. -/
structure Token where
  tag : Tag
  start : Cursor
  follow : Cursor
  deriving DecidableEq

/-- What is wrong at a cursor. -/
def Cursor.malformed (c : Cursor) (cause : SyntaxCause) : Failure :=
  .malformed ⟨c.toPlace, cause⟩

namespace Token

/-- The text of a token. -/
def text (t : Token) : String := t.start.take (t.follow.index - t.start.index)

/-- A line for people to read: name, text and place. -/
def summary (t : Token) : String :=
  s!"<Token {t.tag.name} {Text.quoted t.text} at {t.start.describe}>"

/-- Another kind of token was needed here. -/
def expected (t : Token) (want : Tag) : Failure :=
  t.follow.malformed (.expected want t.tag)

/-- The token that begins with the character `ch` at `start`; `follow` is one character on. -/
def scanAt (start follow : Cursor) (ch : Char) : Except Failure Token := do
  match Tag.ofChar? ch with
  | some tag => .ok ⟨tag, start, follow⟩
  | none =>
    if Text.isLetter ch then
      let follow ← follow.skipWhile Text.isLetterOrDigit
      .ok ⟨.ident, start, follow⟩
    else if Text.isDigit ch then
      let follow ← follow.skipWhile Text.isDigit
      if ← follow.satisfies Text.isLetter then
        .error (follow.malformed .lettersAfterDigits)
      else
        .ok ⟨.number, start, follow⟩
    else
      .error (follow.malformed .unknownCharacter)

/-- The first token after the cursor. -/
def scan (c : Cursor) : Except Failure Token := do
  let start ← c.skipWhile Text.isBlank
  let follow ← start.advance
  match ← start.peek with
  | none => .ok ⟨.endOfText, start, follow⟩
  | some ch => scanAt start follow ch

/-- The token after this one. -/
def next (t : Token) : Except Failure Token := scan t.follow

/-! ## Progress -/

theorem follow_of_scanAt {start follow : Cursor} {ch : Char} {t : Token}
    (h : scanAt start follow ch = .ok t) : ∃ cs, t.follow = follow.past cs := by
  unfold scanAt at h
  split at h
  · cases h; exact ⟨[], rfl⟩
  · split at h
    · cases hs : follow.skipWhile Text.isLetterOrDigit with
      | error e => rw [hs] at h; cases h
      | ok f => rw [hs] at h; cases h; exact ⟨_, Cursor.skipWhile_past hs⟩
    · split at h
      · cases hs : follow.skipWhile Text.isDigit with
        | error e => rw [hs] at h; cases h
        | ok f =>
          rw [hs] at h
          cases hl : f.satisfies Text.isLetter with
          | error e => simp only [bind, Except.bind, hl] at h; cases h
          | ok b =>
            simp only [bind, Except.bind, hl] at h
            cases b with
            | true => cases h
            | false => cases h; exact ⟨_, Cursor.skipWhile_past hs⟩
      · cases h

/-- Every token but the end of the text moves the cursor on, inside the same bound. -/
theorem scan_progress {c : Cursor} {t : Token} (h : scan c = .ok t) (ht : t.tag ≠ .endOfText) :
    t.follow.limit = c.limit ∧ c.index < t.follow.index ∧ c.index < c.limit := by
  unfold scan at h
  cases hs : c.skipWhile Text.isBlank with
  | error e => rw [hs] at h; cases h
  | ok start =>
    have hpast := Cursor.skipWhile_past hs
    cases hf : start.advance with
    | error e => simp only [bind, Except.bind, hs, hf] at h; cases h
    | ok follow =>
      cases hp : start.peek with
      | error e => simp only [bind, Except.bind, hs, hf, hp] at h; cases h
      | ok o =>
        simp only [bind, Except.bind, hs, hf, hp] at h
        cases o with
        | none => cases h; exact absurd rfl ht
        | some ch =>
          have hlt := Cursor.index_lt_limit_of_peek hp
          obtain ⟨cs, hcs⟩ := follow_of_scanAt h
          rcases Cursor.advance_past hf with ⟨hn, _⟩ | ⟨ch', _, rfl⟩
          · rw [hp] at hn; cases hn
          · rw [hpast] at hlt hcs
            simp only [Cursor.past_index, Cursor.past_limit] at hlt
            rw [hcs]
            simp only [Cursor.past_index, Cursor.past_limit, List.length_singleton]
            exact ⟨trivial, by omega, by omega⟩

end Token

/-- A text as tokens. -/
inductive Lexed where
  /-- A token and what comes after it. -/
  | token (t : Token) (rest : Lexed)
  /-- The end of the text. -/
  | done (t : Token)
  /-- Here no token begins. -/
  | broken (e : Failure)

namespace Lexed

/-- The tokens after the cursor. -/
def ofCursor (c : Cursor) : Lexed :=
  match _h : Token.scan c with
  | .error e => broken e
  | .ok t => if _ht : t.tag = .endOfText then done t else token t (ofCursor t.follow)
termination_by c.limit - c.index
decreasing_by
  have := Token.scan_progress _h _ht
  omega

/-- The tokens, the end of the text last; a failure ends them early. -/
def tokens : Lexed → List Token
  | token t rest => t :: rest.tokens
  | done t => [t]
  | broken _ => []

/-- What ended the tokens early. -/
def failure? : Lexed → Option Failure
  | token _ rest => rest.failure?
  | done _ => none
  | broken e => some e

/-- The token that ends the text. -/
def end? : Lexed → Option Token
  | token _ rest => rest.end?
  | done t => some t
  | broken _ => none

/-- The number of tokens before the end. -/
def length : Lexed → Nat
  | token _ rest => rest.length + 1
  | done _ => 0
  | broken _ => 0

end Lexed

end EvalOrder
