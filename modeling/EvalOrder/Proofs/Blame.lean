import EvalOrder.Proofs.Reading

/-!
# What a failed reading blames

Reading a line fails because the tokens end in a failure, or at one of the tokens: at its start or behind
it. Nothing else can go wrong, so a line that cannot be read is malformed.

Results:
* `operand_blames`, `names_blames`, `expressions_blames`: the parts of a line.
* **`ofLexed_blames`**: the whole line.
* `Blames.malformed`: all of these failures are malformed text.
-/

namespace EvalOrder

namespace Lexed

/-- The failure is the one that the tokens end in, or is put at one of the tokens. -/
inductive Blames (s : Lexed) : Failure → Prop
  | lexing {e : Failure} : s.failure? = some e → s.Blames e
  | start {t : Token} {cause : SyntaxCause} : t ∈ s.tokens → s.Blames (t.start.malformed cause)
  | follow {t : Token} {cause : SyntaxCause} : t ∈ s.tokens → s.Blames (t.follow.malformed cause)

theorem Blames.cons {t : Token} {s : Lexed} {e : Failure} (h : s.Blames e) : (token t s).Blames e := by
  cases h with
  | lexing he => exact .lexing he
  | start ht => exact .start (List.mem_cons_of_mem _ ht)
  | follow ht => exact .follow (List.mem_cons_of_mem _ ht)

theorem Blames.prepend {s : Lexed} {e : Failure} (h : s.Blames e) (ts : List Token) :
    (prepend ts s).Blames e := by
  induction ts with
  | nil => exact h
  | cons t ts ih => exact ih.cons

theorem Proper.failure_malformed {s : Lexed} (hs : s.Proper) {e : Failure} (h : s.failure? = some e) :
    ∃ m, e = .malformed m := by
  induction s with
  | token t rest ih => exact ih hs.2 h
  | done t => cases h
  | broken e' =>
    obtain ⟨m, rfl⟩ := hs
    exact ⟨m, (Option.some.inj h).symm⟩

/-- What is blamed is malformed text. -/
theorem Blames.malformed {s : Lexed} (hs : s.Proper) {e : Failure} (h : s.Blames e) :
    ∃ m, e = .malformed m := by
  cases h with
  | lexing he => exact hs.failure_malformed he
  | start _ => exact ⟨_, rfl⟩
  | follow _ => exact ⟨_, rfl⟩

/-! ## Parts of a line -/

theorem head_blames {s : Lexed} {e : Failure} (h : s.head = .error e) : s.Blames e := by
  cases s with
  | token t rest => cases h
  | done t => cases h
  | broken e' =>
    obtain rfl := Except.error.inj h
    exact .lexing rfl

theorem names_blames : ∀ (s : Lexed) {defined : List String} {e : Failure},
    (names defined s).outcome = .error e → s.Blames e
  | broken e', defined, e, h => by
    obtain rfl := Except.error.inj h
    exact .lexing rfl
  | done t, defined, e, h => by
    obtain rfl := Except.error.inj h
    exact .follow (List.mem_singleton_self t)
  | token t tail, defined, e, h => by
    unfold names at h
    split at h
    · obtain rfl := Except.error.inj h
      exact .follow List.mem_cons_self
    · split at h
      · obtain rfl := Except.error.inj h
        exact .start List.mem_cons_self
      · cases tail with
        | broken e' =>
          obtain rfl := Except.error.inj h
          exact .lexing rfl
        | done t' => cases h
        | token comma more =>
          by_cases hc : comma.tag = .comma
          · simp only [hc, if_true] at h
            exact (names_blames more h).cons.cons
          · simp only [hc, if_false] at h
            cases h

mutual

theorem operand_blames (depth : Nat) : ∀ (s : Lexed) {e : Failure},
    (operand depth s).outcome = .error e → s.Blames e
  | broken e', e, h => by
    obtain rfl := Except.error.inj h
    exact .lexing rfl
  | done t, e, h => by
    obtain rfl := Except.error.inj h
    exact .start (List.mem_singleton_self t)
  | token t tail, e, h => by
    rw [operand] at h
    split at h
    · exact (operator_blames depth tail h).cons
    · exact (operator_blames depth tail h).cons
    · exact (operand_blames (depth + 1) tail h).cons
    · exact (operand_blames depth tail h).cons
    · obtain rfl := Except.error.inj h
      exact .start List.mem_cons_self

theorem operator_blames (depth : Nat) : ∀ (s : Lexed) {e : Failure},
    (operator depth s).outcome = .error e → s.Blames e
  | broken e', e, h => by
    obtain rfl := Except.error.inj h
    exact .lexing rfl
  | done t, e, h => by
    unfold operator at h
    split at h
    · cases h
    · obtain rfl := Except.error.inj h
      exact .follow (List.mem_singleton_self t)
  | token t tail, e, h => by
    unfold operator at h
    split at h
    · exact (operand_blames depth tail h).cons
    · exact (operand_blames depth tail h).cons
    · split at h
      · cases h
      · exact (operator_blames _ tail h).cons
    · split at h
      · cases h
      · obtain rfl := Except.error.inj h
        exact .follow List.mem_cons_self

end

theorem expressions_blames (s : Lexed) {e : Failure} (h : s.expressions.2 = .error e) : s.Blames e := by
  fun_induction expressions s with
  | case1 s comma more hout hc later ih =>
    obtain ⟨us, rfl, -, -, -⟩ := operand_eq_ok_iff.mp (Stretch.eq_of_outcome hout)
    exact (ih h).cons.prepend us
  | case2 s comma more hout hc => cases h
  | case3 s hout => exact operand_blames 0 s h

end Lexed

/-! ## A whole line -/

open Lexed

/-- The token after a declaration is one of the line. -/
theorem Reading.mem_tokens_of_outcome {defined : List String} {s : Lexed} {finish : Token}
    (h : (Reading.ofLexed defined s).outcome = .ok finish) : finish ∈ s.tokens := by
  have hread : Reading.ofLexed defined s =
      ⟨(Reading.ofLexed defined s).names, (Reading.ofLexed defined s).expressions, .ok finish⟩ := by
    rw [← h]
  obtain ⟨l, e, r, sums, rest, rfl, -, -, -, -, -, -, -, hfinish⟩ := Reading.ofLexed_eq_ok_iff.mp hread
  rw [tokens_prepend, tokens, tokens_prepend]
  simp [mem_tokens_of_head hfinish]

/-- **A line that cannot be read blames its tokens.** -/
theorem Reading.ofLexed_blames {defined : List String} {s : Lexed} {e : Failure}
    (h : (Reading.ofLexed defined s).outcome = .error e) : s.Blames e := by
  unfold Reading.ofLexed at h
  cases hleft : (s.names defined).outcome with
  | error e' =>
    simp only [hleft] at h
    obtain rfl := Except.error.inj h
    exact names_blames s hleft
  | ok rest =>
    obtain ⟨ts, rfl, -⟩ := names_eq_ok_iff.mp (Stretch.eq_of_outcome hleft)
    refine Blames.prepend ?_ ts
    simp only [hleft] at h
    cases rest with
    | broken e' =>
      obtain rfl := Except.error.inj h
      exact .lexing rfl
    | done t =>
      obtain rfl := Except.error.inj h
      exact .follow (List.mem_singleton_self t)
    | token t right =>
      by_cases ht : t.tag = .equalSign
      · simp only [ht, if_true] at h
        cases hright : right.expressions.2 with
        | error e' =>
          rw [hright] at h
          obtain rfl := Except.error.inj h
          exact (expressions_blames right hright).cons
        | ok after =>
          rw [hright] at h
          obtain ⟨us, -, rfl, -⟩ := expressions_eq_ok_iff.mp
            (Prod.ext rfl hright : right.expressions = (right.expressions.1, .ok after))
          exact ((head_blames h).prepend us).cons
      · simp only [ht, if_false] at h
        obtain rfl := Except.error.inj h
        exact .follow List.mem_cons_self

end EvalOrder
