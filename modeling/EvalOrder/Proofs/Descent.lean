import EvalOrder.Source.Declaration

/-!
# Recursive descent

Expressions can also be read along the grammar, by one function for each of its variables: `sum`, `mul` and `var`, as
`_parse_sum`, `_parse_mul` and `_parse_var` do. A sum is a product and then, as long as a sign stands there, the sign
and another product; a product is made of operands in the same way; and an operand in brackets is a sum. Each function
says how many tokens it leaves (`Within`), so that what goes on after it may be read by the same functions.

The reader with two states and a number of open brackets does the same. Where an operand is due, both read an operand.
Where one has ended, `operator` goes on with the rest of the product, then with the rest of the sum, and then closes a
bracket (`close`), behind which an operand has ended again.

Results:
* `operand_eq_var`, `operator_eq_loops`: one step of the induction on the number of tokens.
* `readsAlong`: what the two states do, in terms of the functions of the grammar.
* **`operand_eq_sum`**: outside brackets, reading an operand and what follows it is reading a sum.
-/

namespace EvalOrder

namespace Stretch

/-- Go on with what follows a stretch. -/
def andThen (s : Stretch) (next : Lexed → Stretch) : Stretch :=
  match s.outcome with
  | .error e => ⟨s.mentioned, .error e⟩
  | .ok rest => ⟨s.mentioned ++ (next rest).mentioned, (next rest).outcome⟩

@[simp] theorem failing_andThen (e : Failure) (next : Lexed → Stretch) : (failing e).andThen next = failing e := rfl

@[simp] theorem ending_andThen (rest : Lexed) (next : Lexed → Stretch) : (ending rest).andThen next = next rest := rfl

@[simp] theorem mention_andThen (name : String) (s : Stretch) (next : Lexed → Stretch) :
    (mention name s).andThen next = mention name (s.andThen next) := by
  unfold andThen mention
  cases s.outcome <;> rfl

theorem andThen_assoc (s : Stretch) (f g : Lexed → Stretch) :
    (s.andThen f).andThen g = s.andThen fun rest => (f rest).andThen g := by
  obtain ⟨mentioned, outcome⟩ := s
  cases outcome with
  | error e => rfl
  | ok rest =>
    unfold andThen
    cases hf : (f rest).outcome with
    | error e => simp only [hf]
    | ok more => simp only [hf, List.append_assoc]

@[simp] theorem andThen_ending (s : Stretch) : s.andThen ending = s := by
  obtain ⟨mentioned, outcome⟩ := s
  cases outcome with
  | error e => rfl
  | ok rest => simp [andThen, ending]

end Stretch

/-- A stretch after which fewer than `n` tokens are left. -/
structure Within (n : Nat) where
  mentioned : List String
  outcome : Except Failure { rest : Lexed // rest.length < n }

namespace Within

variable {n m : Nat}

/-- The stretch itself. -/
def stretch (p : Within n) : Stretch := ⟨p.mentioned, p.outcome.map Subtype.val⟩

def ending (rest : Lexed) (h : rest.length < n) : Within n := ⟨[], .ok ⟨rest, h⟩⟩

def failing (e : Failure) : Within n := ⟨[], .error e⟩

def mention (name : String) (p : Within n) : Within n := ⟨name :: p.mentioned, p.outcome⟩

/-- Allow more tokens to be left. -/
def widen (h : n ≤ m) (p : Within n) : Within m :=
  ⟨p.mentioned, p.outcome.map fun rest => ⟨rest.1, Nat.lt_of_lt_of_le rest.2 h⟩⟩

/-- Allow one token more to be left. -/
def loosen (p : Within n) : Within (n + 1) := p.widen (Nat.le_succ n)

/-- Go on with what follows, of which no more tokens may be left. -/
def andThen (p : Within n) (next : (rest : Lexed) → rest.length < n → Within (rest.length + 1)) : Within n :=
  match p.outcome with
  | .error e => ⟨p.mentioned, .error e⟩
  | .ok ⟨rest, h⟩ =>
    let later := next rest h
    ⟨p.mentioned ++ later.mentioned, later.outcome.map fun more => ⟨more.1, Nat.lt_of_lt_of_le more.2 h⟩⟩

@[simp] theorem stretch_ending (rest : Lexed) (h : rest.length < n) : (ending rest h).stretch = .ending rest := rfl

@[simp] theorem stretch_failing (e : Failure) : (failing e : Within n).stretch = .failing e := rfl

@[simp] theorem stretch_mention (name : String) (p : Within n) :
    (p.mention name).stretch = p.stretch.mention name := rfl

@[simp] theorem stretch_widen (h : n ≤ m) (p : Within n) : (p.widen h).stretch = p.stretch := by
  obtain ⟨mentioned, outcome⟩ := p
  cases outcome <;> rfl

@[simp] theorem stretch_loosen (p : Within n) : p.loosen.stretch = p.stretch := stretch_widen _ p

/-- Only what may follow matters to how a stretch goes on. -/
theorem andThen_congr {p : Within n} {f g : Lexed → Stretch} (h : ∀ rest, rest.length < n → f rest = g rest) :
    p.stretch.andThen f = p.stretch.andThen g := by
  obtain ⟨mentioned, outcome⟩ := p
  cases outcome with
  | error e => rfl
  | ok rest => simp only [Stretch.andThen, stretch, Except.map, h rest.1 rest.2]

@[simp] theorem stretch_andThen (p : Within n) (f : (rest : Lexed) → Within (rest.length + 1)) :
    (p.andThen fun rest _ => f rest).stretch = p.stretch.andThen fun rest => (f rest).stretch := by
  obtain ⟨mentioned, outcome⟩ := p
  cases outcome with
  | error e => rfl
  | ok rest =>
    obtain ⟨rest, h⟩ := rest
    simp only [stretch, andThen, Stretch.andThen, Except.map]
    cases (f rest).outcome <;> rfl

end Within

namespace Lexed

theorem length_token_ge (t : Token) (rest : Lexed) : rest.length + 1 ≤ (token t rest).length := Nat.le_refl _

/-- The token after the current one becomes the current one. -/
def next : (rest : Lexed) → Within (rest.length + 1)
  | broken e => .failing e
  | done t => .ending (done t) (Nat.lt_succ_self _)
  | token t rest => .ending (token t rest) (Nat.lt_succ_self _)

/-- The current token has to be of a kind, and is passed. -/
def expect (want : Tag) : (s : Lexed) → Within s.length
  | broken e => .failing e
  | done t => .failing (t.expected want)
  | token t rest => if t.tag = want then rest.next.widen (length_token_ge t rest) else .failing (t.expected want)

mutual

/-- `Sum`: a product, and more of them behind signs. -/
def sum (s : Lexed) : Within s.length :=
  s.mul.andThen fun rest _ => rest.sumLoop
termination_by (s.length, 2)

/-- As long as a sign stands there, it is passed and a product is read. -/
def sumLoop : (s : Lexed) → Within (s.length + 1)
  | broken e => .failing e
  | done t => .ending (done t) (Nat.lt_succ_self _)
  | token t rest =>
    if t.tag = .sumSign then
      (((token t rest).expect .sumSign).andThen fun right _ =>
        (right.mul.andThen fun more _ => more.sumLoop).loosen).loosen
    else .ending (token t rest) (Nat.lt_succ_self _)
termination_by s => (s.length, 0)

/-- `Mul`: an operand, and more of them behind signs. -/
def mul (s : Lexed) : Within s.length :=
  s.var.andThen fun rest _ => rest.mulLoop
termination_by (s.length, 1)

/-- As long as a sign stands there, it is passed and an operand is read. -/
def mulLoop : (s : Lexed) → Within (s.length + 1)
  | broken e => .failing e
  | done t => .ending (done t) (Nat.lt_succ_self _)
  | token t rest =>
    if t.tag = .mulSign then
      (((token t rest).expect .mulSign).andThen fun right _ =>
        (right.var.andThen fun more _ => more.mulLoop).loosen).loosen
    else .ending (token t rest) (Nat.lt_succ_self _)
termination_by s => (s.length, 0)

/-- `Var`: a number, a name, a sum in brackets, or an operand behind a sign. -/
def var : (s : Lexed) → Within s.length
  | broken e => .failing e
  | done t => .failing (t.start.malformed .unknownToken)
  | token t rest =>
    match t.tag with
    | .number => (token t rest).expect .number
    | .ident => ((token t rest).expect .ident).mention t.text
    | .leftBracket =>
      ((token t rest).expect .leftBracket).andThen fun inner _ =>
        (inner.sum.andThen fun more _ => (more.expect .rightBracket).loosen).loosen
    | .sumSign => ((token t rest).expect .sumSign).andThen fun right _ => right.var.loosen
    | _ => .failing (t.start.malformed .unknownToken)
termination_by s => (s.length, 0)

end

/-! ## The two states -/

/-- A sum has ended inside brackets: the innermost one closes, and then an operand has ended. -/
def close : Nat → Lexed → Stretch
  | 0, s => .ending s
  | outer + 1, s => (s.expect .rightBracket).stretch.andThen (operator outer)

theorem stretch_expect {t : Token} {want : Tag} (h : t.tag = want) (rest : Lexed) :
    ((token t rest).expect want).stretch = rest.next.stretch := by
  rw [expect, if_pos h, Within.stretch_widen]

theorem stretch_expect_of_ne {t : Token} {want : Tag} (h : t.tag ≠ want) (rest : Lexed) :
    ((token t rest).expect want).stretch = .failing (t.expected want) := by
  rw [expect, if_neg h, Within.stretch_failing]

/-- What fails where no token begins may go on behind the next token as at the token. -/
theorem next_andThen {f : Lexed → Stretch} (hf : ∀ e, f (broken e) = .failing e) (rest : Lexed) :
    rest.next.stretch.andThen f = f rest := by
  cases rest with
  | broken e => rw [next, Within.stretch_failing, Stretch.failing_andThen, hf]
  | done t => rfl
  | token t rest => rfl

theorem operator_broken (depth : Nat) (e : Failure) : operator depth (broken e) = .failing e := by
  rw [operator]

/-- Behind a sign, the loops go on as the grammar does. -/
theorem stretch_mulLoop {t : Token} (h : t.tag = .mulSign) (rest : Lexed) :
    (token t rest).mulLoop.stretch = rest.mul.stretch := by
  rw [mulLoop, if_pos h, Within.stretch_loosen, Within.stretch_andThen, stretch_expect h,
    next_andThen (fun e => by simp [var]), Within.stretch_loosen, mul]

theorem stretch_sumLoop {t : Token} (h : t.tag = .sumSign) (rest : Lexed) :
    (token t rest).sumLoop.stretch = rest.sum.stretch := by
  rw [sumLoop, if_pos h, Within.stretch_loosen, Within.stretch_andThen, stretch_expect h,
    next_andThen (fun e => by simp [mul, var]), Within.stretch_loosen, sum]

/-- Where no sign is left, the sum has ended. -/
theorem operator_eq_close {t : Token} (hsum : t.tag ≠ .sumSign) (hmul : t.tag ≠ .mulSign) (depth : Nat)
    (rest : Lexed) : operator depth (token t rest) = close depth (token t rest) := by
  unfold operator
  split
  · rename_i ht
    exact absurd ht hsum
  · rename_i ht
    exact absurd ht hmul
  · rename_i ht
    cases depth with
    | zero => rfl
    | succ outer => rw [close, stretch_expect ht, next_andThen (operator_broken outer)]
  · rename_i ht
    cases depth with
    | zero => rfl
    | succ outer => rw [close, stretch_expect_of_ne ht, Stretch.failing_andThen, if_neg (Nat.succ_ne_zero outer)]

/-- What the two states do with tokens, in terms of the functions of the grammar. -/
structure ReadsAlong (s : Lexed) : Prop where
  operand : ∀ depth, operand depth s = s.var.stretch.andThen (operator depth)
  operator : ∀ depth, operator depth s =
    s.mulLoop.stretch.andThen fun rest => rest.sumLoop.stretch.andThen (close depth)

/-- Where an operand is due, a product is read, then the rest of a sum, and then a bracket closes. -/
theorem operand_eq_mul {s : Lexed} (h : ∀ r : Lexed, r.length ≤ s.length → r.ReadsAlong) (depth : Nat) :
    operand depth s = s.mul.stretch.andThen fun rest => rest.sumLoop.stretch.andThen (close depth) := by
  rw [mul, Within.stretch_andThen, Stretch.andThen_assoc, (h s (Nat.le_refl _)).operand]
  exact Within.andThen_congr fun rest hrest => (h rest (Nat.le_of_lt hrest)).operator depth

theorem operand_eq_sum_close {s : Lexed} (h : ∀ r : Lexed, r.length ≤ s.length → r.ReadsAlong) (depth : Nat) :
    operand depth s = s.sum.stretch.andThen (close depth) := by
  rw [sum, Within.stretch_andThen, Stretch.andThen_assoc, operand_eq_mul h]

section Step

variable {s : Lexed} (h : ∀ r : Lexed, r.length < s.length → r.ReadsAlong)

include h

/-- Where an operand is due, if fewer tokens are read along the grammar. -/
theorem operand_eq_var (depth : Nat) : operand depth s = s.var.stretch.andThen (operator depth) := by
  cases s with
  | broken e => rw [operand, var, Within.stretch_failing, Stretch.failing_andThen]
  | done t => rw [operand, var, Within.stretch_failing, Stretch.failing_andThen]
  | token t rest =>
    have hle : ∀ r : Lexed, r.length ≤ rest.length → r.ReadsAlong := fun r hr => h r (Nat.lt_succ_of_le hr)
    rw [operand]
    split
    · rename_i ht
      have hvar : (token t rest).var = (token t rest).expect .number := by rw [var]; simp only [ht]
      rw [hvar, stretch_expect ht, next_andThen (operator_broken depth)]
    · rename_i ht
      have hvar : (token t rest).var = ((token t rest).expect .ident).mention t.text := by rw [var]; simp only [ht]
      rw [hvar, Within.stretch_mention, stretch_expect ht, Stretch.mention_andThen,
        next_andThen (operator_broken depth)]
    · rename_i ht
      have hvar : (token t rest).var = ((token t rest).expect .leftBracket).andThen fun inner _ =>
          (inner.sum.andThen fun more _ => (more.expect .rightBracket).loosen).loosen := by
        rw [var]
        simp only [ht]
      rw [hvar, Within.stretch_andThen, stretch_expect ht, Stretch.andThen_assoc,
        next_andThen (fun e => by simp [sum, mul, var]), operand_eq_sum_close hle]
      simp only [Within.stretch_loosen, Within.stretch_andThen, Stretch.andThen_assoc]
      rfl
    · rename_i ht
      have hvar : (token t rest).var = ((token t rest).expect .sumSign).andThen fun right _ => right.var.loosen := by
        rw [var]
        simp only [ht]
      rw [hvar, Within.stretch_andThen, stretch_expect ht, Stretch.andThen_assoc, next_andThen (fun e => by simp [var]),
        (hle rest (Nat.le_refl _)).operand, Within.stretch_loosen]
    · have hvar : (token t rest).var = .failing (t.start.malformed .unknownToken) := by
        rw [var]
        split <;> simp_all
      rw [hvar, Within.stretch_failing, Stretch.failing_andThen]

/-- Where an operand has ended, if fewer tokens are read along the grammar. -/
theorem operator_eq_loops (depth : Nat) : operator depth s =
    s.mulLoop.stretch.andThen fun rest => rest.sumLoop.stretch.andThen (close depth) := by
  cases s with
  | broken e => rw [operator, mulLoop, Within.stretch_failing, Stretch.failing_andThen]
  | done t =>
    rw [mulLoop, Within.stretch_ending, Stretch.ending_andThen, sumLoop, Within.stretch_ending,
      Stretch.ending_andThen, operator]
    cases depth with
    | zero => rfl
    | succ outer => rfl
  | token t rest =>
    have hle : ∀ r : Lexed, r.length ≤ rest.length → r.ReadsAlong := fun r hr => h r (Nat.lt_succ_of_le hr)
    by_cases hmul : t.tag = .mulSign
    · have hoperator : operator depth (token t rest) = operand depth rest := by simp only [operator, hmul]
      rw [hoperator, operand_eq_mul hle, stretch_mulLoop hmul]
    · have hmulLoop : (token t rest).mulLoop.stretch = .ending (token t rest) := by
        rw [mulLoop, if_neg hmul, Within.stretch_ending]
      rw [hmulLoop, Stretch.ending_andThen]
      by_cases hsum : t.tag = .sumSign
      · have hoperator : operator depth (token t rest) = operand depth rest := by simp only [operator, hsum]
        rw [hoperator, operand_eq_sum_close hle, stretch_sumLoop hsum]
      · have hsumLoop : (token t rest).sumLoop.stretch = .ending (token t rest) := by
          rw [sumLoop, if_neg hsum, Within.stretch_ending]
        rw [hsumLoop, Stretch.ending_andThen]
        exact operator_eq_close hsum hmul depth rest

end Step

/-- **What the two states do.** By induction on the number of tokens that are left. -/
theorem readsAlong (s : Lexed) : s.ReadsAlong := by
  have hshorter : ∀ r : Lexed, r.length < s.length → r.ReadsAlong := fun r _ => readsAlong r
  exact ⟨operand_eq_var hshorter, operator_eq_loops hshorter⟩
termination_by s.length

/-- **Outside brackets, reading an operand and what follows it is reading a sum.** The names that are mentioned and the
failures are the same, too. -/
theorem operand_eq_sum (s : Lexed) : operand 0 s = s.sum.stretch := by
  rw [operand_eq_sum_close fun r _ => readsAlong r]
  exact Stretch.andThen_ending _

end Lexed

end EvalOrder
