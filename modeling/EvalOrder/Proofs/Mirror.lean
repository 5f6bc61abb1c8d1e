import EvalOrder.Proofs.Reading
import Mathlib.Data.Set.Function

/-!
# Lines that mirror each other

Reading a line looks at the kinds of its tokens and at which names are the same; whatever else a token is, it only
counts where the line fails. So two lines are read alike whose tokens correspond, one by one, in such a way that kinds
are the same, a name always stands for the same name, and failures at tokens that correspond do (`Agrees`): they mention
names that correspond, end at tokens that do, or fail with failures that do.

Results:
* `names_mirrors`, `operand_operator_mirrors`, `expressions_mirrors`: the parts of a line.
* **`ofLexed_mirrors`**: the whole line.
-/

namespace EvalOrder

/-- Two outcomes are both failures or both none, and correspond. -/
inductive Together {α β : Type} (E : Failure → Failure → Prop) (R : α → β → Prop) :
    Except Failure α → Except Failure β → Prop
  | ok {a : α} {b : β} : R a b → Together E R (.ok a) (.ok b)
  | error {e e' : Failure} : E e e' → Together E R (.error e) (.error e')

/-- Tokens and failures that correspond. Tokens are of one kind; the names of the first line are `known`, and are
renamed by `r`, no two to the same. A line does not fail because names are undeclared. -/
structure Agrees (r : String → String) (known : Set String) (T : Token → Token → Prop)
    (E : Failure → Failure → Prop) : Prop where
  injOn : Set.InjOn r known
  tag : ∀ {t t'}, T t t' → t'.tag = t.tag
  text : ∀ {t t'}, T t t' → t.tag = .ident → t.text ∈ known ∧ t'.text = r t.text
  expected : ∀ {t t'} (want : Tag), T t t' → E (t.expected want) (t'.expected want)
  start : ∀ {t t'} {cause : SyntaxCause}, T t t' → (∀ names, cause ≠ .undefined names) →
    E (t.start.malformed cause) (t'.start.malformed cause)

/-- Tokens that correspond one by one, and end alike. -/
inductive Lexed.Mirrors (T : Token → Token → Prop) (E : Failure → Failure → Prop) : Lexed → Lexed → Prop
  | token {t t' : Token} {rest rest' : Lexed} : T t t' → Mirrors T E rest rest' →
      Mirrors T E (.token t rest) (.token t' rest')
  | done {t t' : Token} : T t t' → Mirrors T E (.done t) (.done t')
  | broken {e e' : Failure} : E e e' → Mirrors T E (.broken e) (.broken e')

/-- Stretches that mention names which correspond, and end alike. -/
structure Stretch.Mirrors (r : String → String) (known : Set String) (T : Token → Token → Prop)
    (E : Failure → Failure → Prop) (s s' : Stretch) : Prop where
  known : ∀ x ∈ s.mentioned, x ∈ known
  mentioned : s'.mentioned = s.mentioned.map r
  outcome : Together E (Lexed.Mirrors T E) s.outcome s'.outcome

/-- Lines that say the same of names which correspond, and end alike. -/
structure Reading.Mirrors (r : String → String) (known : Set String) (T : Token → Token → Prop)
    (E : Failure → Failure → Prop) (a b : Reading) : Prop where
  known : (∀ x ∈ a.names, x ∈ known) ∧ ∀ x ∈ a.expressions.flatten, x ∈ known
  names : b.names = a.names.map r
  expressions : b.expressions = a.expressions.map (List.map r)
  outcome : Together E T a.outcome b.outcome

/-- Among values of which no two have one image, an image tells whether a value is in a list. -/
theorem mem_map_iff_of_injOn {α β : Type} {f : α → β} {known : Set α} (hf : Set.InjOn f known) {xs : List α}
    (hxs : ∀ x ∈ xs, x ∈ known) {x : α} (hx : x ∈ known) : f x ∈ xs.map f ↔ x ∈ xs := by
  rw [List.mem_map]
  exact hf.mem_image_iff hxs hx

variable {r : String → String} {known : Set String} {T : Token → Token → Prop} {E : Failure → Failure → Prop}

namespace Stretch

theorem mirrors_failing {e e' : Failure} (h : E e e') : Mirrors r known T E (failing e) (failing e') :=
  ⟨by simp [failing], rfl, .error h⟩

theorem mirrors_ending {s s' : Lexed} (h : Lexed.Mirrors T E s s') : Mirrors r known T E (ending s) (ending s') :=
  ⟨by simp [ending], rfl, .ok h⟩

theorem Mirrors.mention {s s' : Stretch} (h : Mirrors r known T E s s') {x : String} (hx : x ∈ known) :
    Mirrors r known T E (s.mention x) (s'.mention (r x)) :=
  ⟨List.forall_mem_cons.mpr ⟨hx, h.known⟩, congrArg (r x :: ·) h.mentioned, h.outcome⟩

end Stretch

namespace Lexed

theorem names_mirrors (h : Agrees r known T E) {s s' : Lexed} {defined : List String} (hs : Mirrors T E s s')
    (hdefined : ∀ x ∈ defined, x ∈ known) :
    Stretch.Mirrors r known T E (names defined s) (names (defined.map r) s') := by
  fun_induction names defined s generalizing s' with
  | case1 defined e =>
    cases hs with
    | broken he => exact Stretch.mirrors_failing he
  | case2 defined t =>
    cases hs with
    | done ht => exact Stretch.mirrors_failing (h.expected .ident ht)
  | case3 defined t rest htag =>
    cases hs with
    | token ht _ =>
      simp only [names.eq_def _ (token _ _), h.tag ht, if_pos htag]
      exact Stretch.mirrors_failing (h.expected .ident ht)
  | case4 defined t rest htag hin =>
    cases hs with
    | token ht _ =>
      obtain ⟨-, htext⟩ := h.text ht (not_not.mp htag)
      simp only [names.eq_def _ (token _ _), h.tag ht, if_neg htag, htext, if_pos (List.mem_map_of_mem hin)]
      exact Stretch.mirrors_failing (h.start ht (by simp))
  | case5 defined t rest htag hnew ih =>
    cases hs with
    | token ht hrest =>
      obtain ⟨hknown, htext⟩ := h.text ht (not_not.mp htag)
      have hnew' : r t.text ∉ defined.map r := fun hin => hnew ((mem_map_iff_of_injOn h.injOn hdefined hknown).mp hin)
      simp only [names.eq_def _ (token _ _), h.tag ht, if_neg htag, htext, if_neg hnew']
      refine Stretch.Mirrors.mention ?_ hknown
      cases hrest with
      | broken he => exact Stretch.mirrors_failing he
      | done ht => exact Stretch.mirrors_ending (.done ht)
      | token hc hmore =>
        simp only [h.tag hc]
        split
        · exact ih hmore (List.forall_mem_cons.mpr ⟨hknown, hdefined⟩)
        · exact Stretch.mirrors_ending (.token hc hmore)

/-- A token is read alike whether an operand is due or has ended. -/
theorem operand_operator_mirrors (h : Agrees r known T E) {s s' : Lexed} (hs : Mirrors T E s s') (depth : Nat) :
    Stretch.Mirrors r known T E (operand depth s) (operand depth s') ∧
      Stretch.Mirrors r known T E (operator depth s) (operator depth s') := by
  induction hs generalizing depth with
  | broken he => exact ⟨Stretch.mirrors_failing he, Stretch.mirrors_failing he⟩
  | done ht =>
    refine ⟨Stretch.mirrors_failing (h.start ht (by simp)), ?_⟩
    rw [operator, operator]
    split
    · exact Stretch.mirrors_ending (.done ht)
    · exact Stretch.mirrors_failing (h.expected .rightBracket ht)
  | token ht hrest ih =>
    constructor
    · rw [operand, operand, h.tag ht]
      split
      · exact (ih depth).2
      · rename_i htag
        obtain ⟨hknown, htext⟩ := h.text ht htag
        rw [htext]
        exact (ih depth).2.mention hknown
      · exact (ih (depth + 1)).1
      · exact (ih depth).1
      · exact Stretch.mirrors_failing (h.start ht (by simp))
    · rw [operator.eq_def, operator.eq_def]
      simp only [h.tag ht]
      split
      · exact (ih depth).1
      · exact (ih depth).1
      · split
        · exact Stretch.mirrors_ending (.token ht hrest)
        · exact (ih _).2
      · split
        · exact Stretch.mirrors_ending (.token ht hrest)
        · exact Stretch.mirrors_failing (h.expected .rightBracket ht)

theorem expressions_mirrors (h : Agrees r known T E) {s s' : Lexed} (hs : Mirrors T E s s') :
    (∀ x ∈ s.expressions.1.flatten, x ∈ known) ∧ s'.expressions.1 = s.expressions.1.map (List.map r) ∧
      Together E (Mirrors T E) s.expressions.2 s'.expressions.2 := by
  fun_induction expressions s generalizing s' with
  | case1 s comma more hout hc later =>
    rename_i ih
    obtain ⟨hknown, hmentioned, houtcome⟩ := (operand_operator_mirrors h hs 0).1
    rw [hout] at houtcome
    generalize hout' : (operand 0 s').outcome = outcome at houtcome
    cases houtcome with
    | ok hrest =>
      cases hrest with
      | @token _ comma' _ _ ht hmore =>
        obtain ⟨hlater, hgroups, hend⟩ := ih hmore
        have hc' : comma'.tag = .comma := (h.tag ht).trans hc
        rw [expressions.eq_def, hout']
        simp only [hc', if_true, hmentioned, hgroups]
        exact ⟨by simpa [or_imp, forall_and] using ⟨hknown, by simpa using hlater⟩, rfl, hend⟩
  | case2 s comma more hout hc =>
    obtain ⟨hknown, hmentioned, houtcome⟩ := (operand_operator_mirrors h hs 0).1
    rw [hout] at houtcome
    generalize hout' : (operand 0 s').outcome = outcome at houtcome
    cases houtcome with
    | ok hrest =>
      cases hrest with
      | @token _ comma' _ _ ht hmore =>
        have hc' : comma'.tag ≠ .comma := fun hc' => hc ((h.tag ht).symm.trans hc')
        rw [expressions.eq_def, hout']
        simp only [hc', if_false, hmentioned]
        exact ⟨by simpa using hknown, rfl, .ok (.token ht hmore)⟩
  | case3 s hout =>
    obtain ⟨hknown, hmentioned, houtcome⟩ := (operand_operator_mirrors h hs 0).1
    have hsame : s'.expressions = ([(operand 0 s').mentioned], (operand 0 s').outcome) := by
      rw [expressions.eq_def]
      split
      · rename_i comma' more' hout'
        rw [hout'] at houtcome
        generalize (operand 0 s).outcome = outcome at houtcome hout
        cases houtcome with
        | ok hrest =>
          cases hrest with
          | token ht hmore => exact absurd rfl (hout _ _)
      · rfl
    rw [hsame, hmentioned]
    exact ⟨by simpa using hknown, rfl, houtcome⟩

theorem head_mirrors {s s' : Lexed} (hs : Mirrors T E s s') : Together E T s.head s'.head := by
  cases hs with
  | token ht _ => exact .ok ht
  | done ht => exact .ok ht
  | broken he => exact .error he

end Lexed

/-- **Reading lines that mirror each other.** -/
theorem Reading.ofLexed_mirrors (h : Agrees r known T E) {s s' : Lexed} (hs : Lexed.Mirrors T E s s')
    {defined : List String} (hdefined : ∀ x ∈ defined, x ∈ known) :
    Mirrors r known T E (ofLexed defined s) (ofLexed (defined.map r) s') := by
  obtain ⟨hknown, hmentioned, houtcome⟩ := Lexed.names_mirrors h hs hdefined
  unfold ofLexed
  generalize Lexed.names defined s = left at hknown hmentioned houtcome
  generalize Lexed.names (defined.map r) s' = left' at hmentioned houtcome
  obtain ⟨ns, outcome⟩ := left
  obtain ⟨ns', outcome'⟩ := left'
  have hnone : ∀ x ∈ ([] : List (List String)).flatten, x ∈ known := by simp
  cases houtcome with
  | error he => exact ⟨⟨hknown, hnone⟩, hmentioned, rfl, .error he⟩
  | ok hrest =>
    cases hrest with
    | broken he => exact ⟨⟨hknown, hnone⟩, hmentioned, rfl, .error he⟩
    | done ht => exact ⟨⟨hknown, hnone⟩, hmentioned, rfl, .error (h.expected .equalSign ht)⟩
    | @token t t' right right' ht hright =>
      obtain ⟨hcalled, hgroups, hend⟩ := Lexed.expressions_mirrors h hright
      simp only [h.tag ht]
      split
      · refine ⟨⟨hknown, hcalled⟩, hmentioned, hgroups, ?_⟩
        simp only
        generalize right.expressions.2 = outcome at hend
        generalize right'.expressions.2 = outcome' at hend
        cases hend with
        | ok hafter => exact Lexed.head_mirrors hafter
        | error he => exact .error he
      · exact ⟨⟨hknown, hnone⟩, hmentioned, rfl, .error (h.expected .equalSign ht)⟩

end EvalOrder
