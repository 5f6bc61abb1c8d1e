import EvalOrder.Source.Token

/-!
# Declarations

A line declares names by expressions, as many of the one as of the other:

    DeclLine    := Names '=' Expressions END_OF_TEXT
    Names       := IDENT [ ',' Names ]
    Expressions := Sum [ ',' Expressions ]
    Sum         := Mul [ ('+'|'-') Sum ]
    Mul         := Var [ ('*'|'/') Mul ]
    Var         := NUMBER | IDENT | '(' Sum ')' | ('+'|'-') Var

`names` is `_parse_formula_names` and `expressions` is `_parse_formulas`. Only the names that an expression mentions
matter, so an expression is read by two states: `operand`, where a `Var` is due, and `operator`, where one has just
ended. Both carry the number of brackets that are open, which is all that the grammar needs to remember.
`Proofs.Descent` writes `_parse_sum`, `_parse_mul` and `_parse_var` as they call each other, and proves that the two
states read the same. Left out is the limit on how deep such calls may nest.

Reading takes in as many tokens as it can. It ends with the tokens that follow or with a failure, and in either case the
names met so far are kept: a later line may not declare them again.

Results:
* `operand_length`, `operator_length`: an expression takes in at least one token; what follows an operator state is
  never longer than what it was given. `expressions` ends because of that.
-/

namespace EvalOrder

/-- What a stretch of a line mentions, in order, and how reading it ended. -/
structure Stretch where
  mentioned : List String
  outcome : Except Failure Lexed

namespace Stretch

/-- Nothing more is mentioned and `rest` follows. -/
def ending (rest : Lexed) : Stretch := ⟨[], .ok rest⟩

/-- Reading stops here. -/
def failing (e : Failure) : Stretch := ⟨[], .error e⟩

/-- The stretch with `name` mentioned before it. -/
def mention (name : String) (s : Stretch) : Stretch := ⟨name :: s.mentioned, s.outcome⟩

end Stretch

namespace Lexed

/-- `_parse_formula_names`: the names of the left-hand side. None may be in `defined` or stand twice. -/
def names (defined : List String) : Lexed → Stretch
  | broken e => .failing e
  | done t => .failing (t.expected .ident)
  | token t rest =>
    if t.tag ≠ .ident then .failing (t.expected .ident)
    else if t.text ∈ defined then .failing (t.start.malformed .alreadyDefined)
    else .mention t.text <| match rest with
      | broken e => .failing e
      | done e => .ending (done e)
      | token comma more =>
        if comma.tag = .comma then names (t.text :: defined) more else .ending (token comma more)

mutual

/-- An operand is due inside `depth` open brackets. -/
def operand (depth : Nat) : Lexed → Stretch
  | broken e => .failing e
  | done t => .failing (t.start.malformed .unknownToken)
  | token t rest =>
    match t.tag with
    | .number => operator depth rest
    | .ident => .mention t.text (operator depth rest)
    | .leftBracket => operand (depth + 1) rest
    | .sumSign => operand depth rest
    | _ => .failing (t.start.malformed .unknownToken)

/-- An operand has ended inside `depth` open brackets. -/
def operator (depth : Nat) : Lexed → Stretch
  | broken e => .failing e
  | done t => if depth = 0 then .ending (done t) else .failing (t.expected .rightBracket)
  | token t rest =>
    match t.tag with
    | .sumSign => operand depth rest
    | .mulSign => operand depth rest
    | .rightBracket =>
      match depth with
      | 0 => .ending (token t rest)
      | outer + 1 => operator outer rest
    | _ => if depth = 0 then .ending (token t rest) else .failing (t.expected .rightBracket)

end

mutual

theorem operand_length (depth : Nat) :
    ∀ (s : Lexed) {rest : Lexed}, (operand depth s).outcome = .ok rest → rest.length < s.length
  | broken e, rest, h => by simp [operand, Stretch.failing] at h
  | done t, rest, h => by simp [operand, Stretch.failing] at h
  | token t tail, rest, h => by
    rw [operand] at h
    split at h
    · exact Nat.lt_succ_of_le (operator_length depth tail h)
    · exact Nat.lt_succ_of_le (operator_length depth tail h)
    · exact Nat.lt_succ_of_lt (operand_length (depth + 1) tail h)
    · exact Nat.lt_succ_of_lt (operand_length depth tail h)
    · simp [Stretch.failing] at h

theorem operator_length (depth : Nat) :
    ∀ (s : Lexed) {rest : Lexed}, (operator depth s).outcome = .ok rest → rest.length ≤ s.length
  | broken e, rest, h => by simp [operator, Stretch.failing] at h
  | done t, rest, h => by
    unfold operator at h
    split at h
    · simp only [Stretch.ending, Except.ok.injEq] at h
      exact h ▸ Nat.le_refl _
    · simp [Stretch.failing] at h
  | token t tail, rest, h => by
    unfold operator at h
    split at h
    · exact Nat.le_succ_of_le (Nat.le_of_lt (operand_length _ tail h))
    · exact Nat.le_succ_of_le (Nat.le_of_lt (operand_length _ tail h))
    · split at h
      · simp only [Stretch.ending, Except.ok.injEq] at h
        exact h ▸ Nat.le_refl _
      · exact Nat.le_succ_of_le (operator_length _ tail h)
    · split at h
      · simp only [Stretch.ending, Except.ok.injEq] at h
        exact h ▸ Nat.le_refl _
      · simp [Stretch.failing] at h

end

/-- `_parse_formulas`: the expressions of the right-hand side, as the names that each mentions, and what follows the
last. -/
def expressions (s : Lexed) : List (List String) × Except Failure Lexed :=
  match _h : (operand 0 s).outcome with
  | .ok (token comma more) =>
    if comma.tag = .comma then
      let later := expressions more
      ((operand 0 s).mentioned :: later.1, later.2)
    else ([(operand 0 s).mentioned], .ok (token comma more))
  | outcome => ([(operand 0 s).mentioned], outcome)
termination_by s.length
decreasing_by
  have := operand_length 0 s _h
  simp only [length] at this
  omega

/-- The token at which a sequence of tokens begins. -/
def head : Lexed → Except Failure Token
  | token t _ => .ok t
  | done t => .ok t
  | broken e => .error e

end Lexed

/-- What a line says: the names it declares, the names that each expression mentions, and the token after the
declaration. A failure leaves what was met before it. -/
structure Reading where
  names : List String
  expressions : List (List String)
  outcome : Except Failure Token

namespace Reading

/-- Read a line whose names may not be among `defined`. -/
def ofLexed (defined : List String) (s : Lexed) : Reading :=
  let left := s.names defined
  match left.outcome with
  | .error e => ⟨left.mentioned, [], .error e⟩
  | .ok rest =>
    match rest with
    | .broken e => ⟨left.mentioned, [], .error e⟩
    | .done t => ⟨left.mentioned, [], .error (t.expected .equalSign)⟩
    | .token t right =>
      if t.tag = .equalSign then
        let (mentioned, outcome) := right.expressions
        ⟨left.mentioned, mentioned, outcome.bind Lexed.head⟩
      else ⟨left.mentioned, [], .error (t.expected .equalSign)⟩

end Reading

end EvalOrder
