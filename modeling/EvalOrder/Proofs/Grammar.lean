import EvalOrder.Proofs.Lexeme

/-!
# The grammar of declarations

The grammar as derivations over words, right-recursive as it is written down:

    DeclLine    := Names '=' Expressions END_OF_TEXT
    Names       := IDENT [ ',' Names ]
    Expressions := Sum [ ',' Expressions ]
    Sum         := Mul [ ('+'|'-') Sum ]
    Mul         := Var [ ('*'|'/') Mul ]
    Var         := NUMBER | IDENT | '(' Sum ')' | ('+'|'-') Var

A derivation of `Names` carries the names, one of `Expressions` the words of each expression.

Results:
* `IsSum.join`: two sums with any operator between them are a sum, whatever the operator binds.
* `IsSum.sign`: a sign may stand before a sum.
* `IsNames.idents_eq`: the names of a left-hand side are its identifiers.
-/

namespace EvalOrder

/-- The identifiers among words, in order. -/
def idents (ws : List Word) : List String :=
  (ws.filter fun w => w.tag = .ident).map Word.text

@[simp] theorem idents_nil : idents [] = [] := rfl

@[simp] theorem idents_append (ws vs : List Word) : idents (ws ++ vs) = idents ws ++ idents vs := by
  simp [idents]

theorem idents_cons_of_ident {w : Word} (h : w.tag = .ident) (ws : List Word) :
    idents (w :: ws) = w.text :: idents ws := by
  simp [idents, h]

theorem idents_cons_of_ne {w : Word} (h : w.tag ≠ .ident) (ws : List Word) :
    idents (w :: ws) = idents ws := by
  simp [idents, h]

namespace Grammar

mutual

/-- `Mul [ ('+'|'-') Sum ]`. -/
inductive IsSum : List Word → Prop
  | mul {w : List Word} : IsMul w → IsSum w
  | sum {w v : List Word} {s : Word} : IsMul w → s.tag = .sumSign → IsSum v → IsSum (w ++ s :: v)

/-- `Var [ ('*'|'/') Mul ]`. -/
inductive IsMul : List Word → Prop
  | var {w : List Word} : IsVar w → IsMul w
  | mul {w v : List Word} {s : Word} : IsVar w → s.tag = .mulSign → IsMul v → IsMul (w ++ s :: v)

/-- `NUMBER | IDENT | '(' Sum ')' | ('+'|'-') Var`. -/
inductive IsVar : List Word → Prop
  | number {t : Word} : t.tag = .number → IsVar [t]
  | ident {t : Word} : t.tag = .ident → IsVar [t]
  | brackets {l r : Word} {w : List Word} :
      l.tag = .leftBracket → IsSum w → r.tag = .rightBracket → IsVar (l :: (w ++ [r]))
  | sign {s : Word} {w : List Word} : s.tag = .sumSign → IsVar w → IsVar (s :: w)

end

/-- `IDENT [ ',' Names ]`, with the names. -/
inductive IsNames : List Word → List String → Prop
  | last {t : Word} : t.tag = .ident → IsNames [t] [t.text]
  | more {t c : Word} {ws : List Word} {ns : List String} :
      t.tag = .ident → c.tag = .comma → IsNames ws ns → IsNames (t :: c :: ws) (t.text :: ns)

/-- `Sum [ ',' Expressions ]`, with the words of each sum. -/
inductive IsExpressions : List Word → List (List Word) → Prop
  | last {w : List Word} : IsSum w → IsExpressions w [w]
  | more {w ws : List Word} {c : Word} {sums : List (List Word)} :
      IsSum w → c.tag = .comma → IsExpressions ws sums → IsExpressions (w ++ c :: ws) (w :: sums)

/-- `Names '=' Expressions END_OF_TEXT`. -/
inductive IsDeclLine : List Word → List String → List (List Word) → Prop
  | line {l r : List Word} {e t : Word} {names : List String} {sums : List (List Word)} :
      IsNames l names → e.tag = .equalSign → IsExpressions r sums → t.tag = .endOfText →
        IsDeclLine (l ++ e :: (r ++ [t])) names sums

/-! ## Operators between sums -/

/-- A sign that stands between operands. -/
def IsOperator (w : Word) : Prop := w.tag = .sumSign ∨ w.tag = .mulSign

theorem IsMul.join {w : List Word} (hw : IsMul w) {s : Word} (hs : s.tag = .mulSign) {v : List Word}
    (hv : IsMul v) : IsMul (w ++ s :: v) := by
  match hw with
  | .var hx => exact .mul hx hs hv
  | .mul hx ht hu =>
    rw [List.append_assoc, List.cons_append]
    exact .mul hx ht (hu.join hs hv)

/-- A product takes in the first product of a sum. -/
theorem IsMul.join_sum {w : List Word} (hw : IsMul w) {s : Word} (hs : s.tag = .mulSign) {v : List Word}
    (hv : IsSum v) : IsSum (w ++ s :: v) := by
  match hv with
  | .mul hx => exact .mul (hw.join hs hx)
  | .sum hx ht hu =>
    rw [← List.cons_append, ← List.append_assoc]
    exact .sum (hw.join hs hx) ht hu

/-- Two sums with an operator between them are a sum. -/
theorem IsSum.join {w : List Word} (hw : IsSum w) {s : Word} (hs : IsOperator s) {v : List Word}
    (hv : IsSum v) : IsSum (w ++ s :: v) := by
  match hw with
  | .mul hx =>
    rcases hs with hs | hs
    · exact .sum hx hs hv
    · exact hx.join_sum hs hv
  | .sum hx ht hu =>
    rw [List.append_assoc, List.cons_append]
    exact .sum hx ht (hu.join hs hv)

theorem IsMul.sign {w : List Word} (hw : IsMul w) {s : Word} (hs : s.tag = .sumSign) : IsMul (s :: w) := by
  match hw with
  | .var hx => exact .var (.sign hs hx)
  | .mul hx ht hu => exact .mul (.sign hs hx) ht hu

/-- A sign may stand before a sum. -/
theorem IsSum.sign {w : List Word} (hw : IsSum w) {s : Word} (hs : s.tag = .sumSign) : IsSum (s :: w) := by
  match hw with
  | .mul hx => exact .mul (hx.sign hs)
  | .sum hx ht hu => exact .sum (hx.sign hs) ht hu

/-! ## The left-hand side -/

/-- The names of a left-hand side are its identifiers. -/
theorem IsNames.idents_eq {ws : List Word} {names : List String} (h : IsNames ws names) :
    idents ws = names := by
  induction h with
  | last ht => simp [idents_cons_of_ident ht]
  | more ht hc _ ih =>
    have hne : ∀ {w : Word}, w.tag = .comma → w.tag ≠ .ident := fun h => by simp [h]
    rw [idents_cons_of_ident ht, idents_cons_of_ne (hne hc), ih]

theorem IsNames.ne_nil {ws : List Word} {names : List String} (h : IsNames ws names) : names ≠ [] := by
  cases h <;> simp

/-- No equals sign stands on a left-hand side. -/
theorem IsNames.tag_ne_equalSign {ws : List Word} {names : List String} (h : IsNames ws names) :
    ∀ w ∈ ws, w.tag ≠ .equalSign := by
  induction h with
  | last ht => simp [ht]
  | more ht hc _ ih => simpa [ht, hc] using ih

end Grammar

end EvalOrder
