import EvalOrder.Source.Declaration
import EvalOrder.Proofs.Grammar

/-!
# Reading an expression

The reader of expressions knows two states and a number of open brackets; the grammar knows sums inside
brackets inside sums. Between the two stands `Fills`: the words that take an operand state from `depth` open
brackets back to none. They are a sum, a bracket that closes, and then words before which any operand makes
the words for one bracket less.

Results:
* `operand_of_isSum`: over a sum the reader comes to the operator state, at any depth, and mentions the
  identifiers of the sum.
* `operand_fills`: where the reader succeeds it has read words that fill the open brackets.
* **`operand_eq_ok_iff`**: reading an expression succeeds exactly on a sum before a token that is no
  operator, and mentions the identifiers of the sum.
-/

namespace EvalOrder

open Grammar

namespace Stretch

/-- The stretch with names mentioned before it. -/
def mentionAll (names : List String) (s : Stretch) : Stretch := ⟨names ++ s.mentioned, s.outcome⟩

@[simp] theorem mentionAll_nil (s : Stretch) : s.mentionAll [] = s := rfl

theorem mentionAll_append (names more : List String) (s : Stretch) :
    s.mentionAll (names ++ more) = (s.mentionAll more).mentionAll names := by
  simp [mentionAll]

end Stretch

@[simp] theorem Token.word_tag (t : Token) : t.word.tag = t.tag := rfl

@[simp] theorem Token.word_text (t : Token) : t.word.text = t.text := rfl

namespace Lexed

/-- Tokens before others. -/
def prepend (ts : List Token) (s : Lexed) : Lexed := ts.foldr token s

@[simp] theorem prepend_nil (s : Lexed) : prepend [] s = s := rfl

@[simp] theorem prepend_cons (t : Token) (ts : List Token) (s : Lexed) :
    prepend (t :: ts) s = token t (prepend ts s) := rfl

theorem prepend_append (ts us : List Token) (s : Lexed) :
    prepend (ts ++ us) s = prepend ts (prepend us s) :=
  List.foldr_append

/-- The next token is there and none of `tags`. -/
def Stops (tags : List Tag) : Lexed → Prop
  | token t _ => t.tag ∉ tags
  | done _ => True
  | broken _ => False

/-! ## A sum is read -/

mutual

/-- Over a sum the reader comes from the operand to the operator state. -/
theorem operand_of_isSum {w : List Word} (h : IsSum w) {ts : List Token} (hw : ts.map Token.word = w)
    (depth : Nat) (rest : Lexed) :
    operand depth (prepend ts rest) = (operator depth rest).mentionAll (idents w) := by
  match h with
  | .mul hx => exact operand_of_isMul hx hw depth rest
  | .sum hx hs hv =>
    obtain ⟨us, vs', rfl, hu, hv'⟩ := List.map_eq_append_iff.mp hw
    obtain ⟨s, vs, rfl, rfl, hvs⟩ := List.map_eq_cons_iff.mp hv'
    have hs' : s.tag = .sumSign := hs
    have hne : s.word.tag ≠ .ident := by simp [hs']
    rw [prepend_append, operand_of_isMul hx hu, prepend_cons, idents_append, idents_cons_of_ne hne,
      Stretch.mentionAll_append, ← operand_of_isSum hv hvs depth rest]
    simp [operator, hs']

theorem operand_of_isMul {w : List Word} (h : IsMul w) {ts : List Token} (hw : ts.map Token.word = w)
    (depth : Nat) (rest : Lexed) :
    operand depth (prepend ts rest) = (operator depth rest).mentionAll (idents w) := by
  match h with
  | .var hx => exact operand_of_isVar hx hw depth rest
  | .mul hx hs hv =>
    obtain ⟨us, vs', rfl, hu, hv'⟩ := List.map_eq_append_iff.mp hw
    obtain ⟨s, vs, rfl, rfl, hvs⟩ := List.map_eq_cons_iff.mp hv'
    have hs' : s.tag = .mulSign := hs
    have hne : s.word.tag ≠ .ident := by simp [hs']
    rw [prepend_append, operand_of_isVar hx hu, prepend_cons, idents_append, idents_cons_of_ne hne,
      Stretch.mentionAll_append, ← operand_of_isMul hv hvs depth rest]
    simp [operator, hs']

theorem operand_of_isVar {w : List Word} (h : IsVar w) {ts : List Token} (hw : ts.map Token.word = w)
    (depth : Nat) (rest : Lexed) :
    operand depth (prepend ts rest) = (operator depth rest).mentionAll (idents w) := by
  match h with
  | .number ht =>
    obtain ⟨t, rfl, rfl⟩ := List.map_eq_singleton_iff.mp hw
    have ht' : t.tag = .number := ht
    have hne : t.word.tag ≠ .ident := by simp [ht']
    rw [idents_cons_of_ne hne]
    simp [operand, ht']
  | .ident ht =>
    obtain ⟨t, rfl, rfl⟩ := List.map_eq_singleton_iff.mp hw
    have ht' : t.tag = .ident := ht
    rw [idents_cons_of_ident ht]
    simp only [prepend_cons, prepend_nil, operand, ht']
    rfl
  | .brackets hl hx hr =>
    obtain ⟨l, us', rfl, rfl, hu'⟩ := List.map_eq_cons_iff.mp hw
    obtain ⟨us, rs, rfl, hu, hr'⟩ := List.map_eq_append_iff.mp hu'
    obtain ⟨r, rfl, rfl⟩ := List.map_eq_singleton_iff.mp hr'
    have hl' : l.tag = .leftBracket := hl
    have hr'' : r.tag = .rightBracket := hr
    have hnl : l.word.tag ≠ .ident := by simp [hl']
    have hnr : r.word.tag ≠ .ident := by simp [hr'']
    rw [idents_cons_of_ne hnl, idents_append, idents_cons_of_ne hnr, idents_nil, List.append_nil,
      prepend_cons, prepend_append, prepend_cons, prepend_nil]
    simp only [operand, hl', operand_of_isSum hx hu, operator, hr'']
  | .sign hs hx =>
    obtain ⟨s, us, rfl, rfl, hu⟩ := List.map_eq_cons_iff.mp hw
    have hs' : s.tag = .sumSign := hs
    have hne : s.word.tag ≠ .ident := by simp [hs']
    rw [idents_cons_of_ne hne, ← operand_of_isVar hx hu depth rest]
    simp [operand, hs']

end

/-! ## What is read is a sum -/

/-- The words that an operand state inside `depth` open brackets needs to come to an end outside them. -/
def Fills : Nat → List Word → Prop
  | 0, w => IsSum w
  | depth + 1, w => ∃ (u v : List Word) (r : Word), w = u ++ r :: v ∧ IsSum u ∧ r.tag = .rightBracket ∧
      ∀ x, IsVar x → Fills depth (x ++ v)

theorem Fills.of_var {x : List Word} (hx : IsVar x) : Fills 0 (x ++ List.map Token.word []) := by
  rw [List.map_nil, List.append_nil]
  exact .mul (.var hx)

theorem Fills.join {depth : Nat} {w : List Word} (h : Fills depth w) {s : Word} (hs : IsOperator s)
    {x : List Word} (hx : IsVar x) : Fills depth (x ++ s :: w) := by
  have hsum : IsSum x := .mul (.var hx)
  cases depth with
  | zero => exact hsum.join hs h
  | succ depth =>
    obtain ⟨u, v, r, rfl, hu, hr, hv⟩ := h
    exact ⟨x ++ s :: u, v, r, by simp, hsum.join hs hu, hr, hv⟩

theorem Fills.sign {depth : Nat} {w : List Word} (h : Fills depth w) {s : Word} (hs : s.tag = .sumSign) :
    Fills depth (s :: w) := by
  cases depth with
  | zero => exact IsSum.sign h hs
  | succ depth =>
    obtain ⟨u, v, r, rfl, hu, hr, hv⟩ := h
    exact ⟨s :: u, v, r, rfl, hu.sign hs, hr, hv⟩

mutual

/-- What an operand state reads fills its open brackets. -/
theorem operand_fills (depth : Nat) :
    ∀ (s : Lexed) {rest : Lexed}, (operand depth s).outcome = .ok rest →
      ∃ ts, s = prepend ts rest ∧ Fills depth (ts.map Token.word) ∧
        (operand depth s).mentioned = idents (ts.map Token.word) ∧ rest.Stops [.sumSign, .mulSign]
  | broken e, rest, h => by simp [operand, Stretch.failing] at h
  | done t, rest, h => by simp [operand, Stretch.failing] at h
  | token t tail, rest, h => by
    rw [operand] at h ⊢
    split at h
    · rename_i ht
      obtain ⟨ts, rfl, hfill, hm, hstop⟩ := operator_fills depth tail h
      refine ⟨t :: ts, rfl, hfill [t.word] (.number ht), ?_, hstop⟩
      rw [List.map_cons, idents_cons_of_ne (by simp [ht])]
      exact hm
    · rename_i ht
      obtain ⟨ts, rfl, hfill, hm, hstop⟩ := operator_fills depth tail h
      refine ⟨t :: ts, rfl, hfill [t.word] (.ident ht), ?_, hstop⟩
      rw [List.map_cons, idents_cons_of_ident (by simp [ht])]
      exact congrArg (t.text :: ·) hm
    · rename_i ht
      obtain ⟨ts, rfl, ⟨u, v, r, hw, hu, hr, hv⟩, hm, hstop⟩ := operand_fills (depth + 1) tail h
      refine ⟨t :: ts, rfl, ?_, ?_, hstop⟩
      · have hfill := hv (t.word :: (u ++ [r])) (.brackets ht hu hr)
        simpa [hw] using hfill
      · rw [List.map_cons, idents_cons_of_ne (by simp [ht])]
        exact hm
    · rename_i ht
      obtain ⟨ts, rfl, hfill, hm, hstop⟩ := operand_fills depth tail h
      refine ⟨t :: ts, rfl, hfill.sign ht, ?_, hstop⟩
      rw [List.map_cons, idents_cons_of_ne (by simp [ht])]
      exact hm
    · simp [Stretch.failing] at h

/-- What an operator state reads fills its open brackets once an operand stands before it. -/
theorem operator_fills (depth : Nat) :
    ∀ (s : Lexed) {rest : Lexed}, (operator depth s).outcome = .ok rest →
      ∃ ts, s = prepend ts rest ∧ (∀ x, IsVar x → Fills depth (x ++ ts.map Token.word)) ∧
        (operator depth s).mentioned = idents (ts.map Token.word) ∧ rest.Stops [.sumSign, .mulSign]
  | broken e, rest, h => by simp [operator, Stretch.failing] at h
  | done t, rest, h => by
    unfold operator at h ⊢
    split at h
    · rename_i hd
      obtain rfl := Except.ok.inj h
      exact ⟨[], rfl, fun x hx => hd ▸ Fills.of_var hx, by simp [hd, Stretch.ending], trivial⟩
    · simp [Stretch.failing] at h
  | token t tail, rest, h => by
    unfold operator at h ⊢
    split at h
    · rename_i ht
      obtain ⟨ts, rfl, hfill, hm, hstop⟩ := operand_fills depth tail h
      refine ⟨t :: ts, rfl, fun x hx => hfill.join (.inl ht) hx, ?_, hstop⟩
      rw [List.map_cons, idents_cons_of_ne (by simp [ht])]
      exact hm
    · rename_i ht
      obtain ⟨ts, rfl, hfill, hm, hstop⟩ := operand_fills depth tail h
      refine ⟨t :: ts, rfl, fun x hx => hfill.join (.inr ht) hx, ?_, hstop⟩
      rw [List.map_cons, idents_cons_of_ne (by simp [ht])]
      exact hm
    · rename_i ht
      cases depth with
      | zero =>
        obtain rfl := Except.ok.inj h
        exact ⟨[], rfl, fun x hx => Fills.of_var hx, rfl, by simp [Stops, ht]⟩
      | succ outer =>
        obtain ⟨ts, rfl, hfill, hm, hstop⟩ := operator_fills outer tail h
        refine ⟨t :: ts, rfl, fun x hx => ⟨x, ts.map Token.word, t.word, by simp, .mul (.var hx), ht, hfill⟩,
          ?_, hstop⟩
        rw [List.map_cons, idents_cons_of_ne (by simp [ht])]
        exact hm
    · rename_i hplus htimes hclose
      split at h
      · rename_i hd
        obtain rfl := Except.ok.inj h
        have hstop : (token t tail).Stops [.sumSign, .mulSign] := by
          simp only [Stops, List.mem_cons, List.not_mem_nil, or_false, not_or]
          exact ⟨hplus, htimes⟩
        exact ⟨[], rfl, fun x hx => hd ▸ Fills.of_var hx, by simp [hd, Stretch.ending], hstop⟩
      · simp [Stretch.failing] at h

end

/-! ## An expression is a sum -/

/-- An operator state outside all brackets ends before a token that is no operator. -/
theorem operator_of_stops {rest : Lexed} (h : rest.Stops [.sumSign, .mulSign]) :
    operator 0 rest = .ending rest := by
  cases rest with
  | broken e => exact absurd h id
  | done t => simp [operator]
  | token t tail =>
    simp only [Stops, List.mem_cons, List.not_mem_nil, or_false, not_or] at h
    unfold operator
    split
    · rename_i ht
      exact absurd ht h.1
    · rename_i ht
      exact absurd ht h.2
    · rfl
    · simp

/-- **Reading an expression** succeeds exactly on a sum before a token that is no operator, and mentions
the identifiers of the sum. -/
theorem operand_eq_ok_iff {s rest : Lexed} {names : List String} :
    operand 0 s = ⟨names, .ok rest⟩ ↔
      ∃ ts, s = prepend ts rest ∧ IsSum (ts.map Token.word) ∧ names = idents (ts.map Token.word) ∧
        rest.Stops [.sumSign, .mulSign] := by
  constructor
  · intro h
    have hout : (operand 0 s).outcome = .ok rest := by rw [h]
    obtain ⟨ts, hs, hsum, hm, hstop⟩ := operand_fills 0 s hout
    rw [h] at hm
    exact ⟨ts, hs, hsum, hm, hstop⟩
  · rintro ⟨ts, rfl, hsum, rfl, hstop⟩
    rw [operand_of_isSum hsum rfl, operator_of_stops hstop]
    simp [Stretch.mentionAll, Stretch.ending]

end Lexed

end EvalOrder
