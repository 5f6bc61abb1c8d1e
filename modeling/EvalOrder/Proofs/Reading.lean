import EvalOrder.Proofs.Expression

/-!
# Reading a line

A line is read as far as it is names, an equals sign and expressions; what follows decides later whether
the line is a declaration. The statements here say exactly when reading comes that far, and that over a
whole line this is the grammar together with the two conditions on names: none stands twice on the
left-hand side, and none was declared before.

Results:
* `names_eq_ok_iff`, `expressions_eq_ok_iff`: the two sides of a line.
* `ofLexed_eq_ok_iff`: reading a line comes to a token after the expressions.
* **`ofLexed_endOfText_iff`**: it comes to the end of the text exactly on a word of the grammar.
-/

namespace EvalOrder

open Grammar

namespace Lexed

theorem Stops.mono {tags more : List Tag} {s : Lexed} (h : s.Stops tags) (hs : ∀ t ∈ more, t ∈ tags) :
    s.Stops more := by
  cases s with
  | token t rest => exact fun hm => h (hs _ hm)
  | done t => trivial
  | broken e => exact absurd h id

theorem Stops.cons {tag : Tag} {tags : List Tag} {t : Token} {rest : Lexed}
    (h : (token t rest).Stops tags) (ht : t.tag ≠ tag) : (token t rest).Stops (tag :: tags) :=
  List.not_mem_cons_of_ne_of_not_mem ht h

theorem Stretch.eq_of_outcome {s : Stretch} {rest : Lexed} (h : s.outcome = .ok rest) :
    s = ⟨s.mentioned, .ok rest⟩ := by
  rw [← h]

/-! ## The left-hand side -/

/-- Over fresh names the reader comes to what follows them. -/
theorem names_of_isNames {w : List Word} {ns : List String} (h : IsNames w ns) {ts : List Token}
    (hw : ts.map Token.word = w) {defined : List String} {rest : Lexed} (hfresh : ∀ n ∈ ns, n ∉ defined)
    (hnodup : ns.Nodup) (hstop : rest.Stops [.comma]) :
    names defined (prepend ts rest) = ⟨ns, .ok rest⟩ := by
  induction h generalizing ts defined with
  | last ht =>
    obtain ⟨t, rfl, rfl⟩ := List.map_eq_singleton_iff.mp hw
    have htag : t.tag = .ident := ht
    have hnew : t.text ∉ defined := hfresh _ (List.mem_singleton_self _)
    cases rest with
    | broken e => exact absurd hstop id
    | done e => simp [names, htag, hnew, Stretch.mention, Stretch.ending]
    | token c more =>
      have hc : c.tag ≠ .comma := fun hc => hstop (by simp [hc])
      simp [names, htag, hnew, hc, Stretch.mention, Stretch.ending]
  | more ht hc _ ih =>
    obtain ⟨t, us, rfl, rfl, hu⟩ := List.map_eq_cons_iff.mp hw
    obtain ⟨c, vs, rfl, rfl, hv⟩ := List.map_eq_cons_iff.mp hu
    have htag : t.tag = .ident := ht
    have hcomma : c.tag = .comma := hc
    obtain ⟨hnew, hfresh⟩ := List.forall_mem_cons.mp hfresh
    have hnew : t.text ∉ defined := hnew
    obtain ⟨hout, hnodup⟩ := List.nodup_cons.mp hnodup
    have hout : t.text ∉ _ := hout
    have hlater : ∀ n ∈ _, n ∉ t.text :: defined := fun n hn =>
      List.not_mem_cons_of_ne_of_not_mem (fun he => hout (he ▸ hn)) (hfresh n hn)
    have htail := ih hv hlater hnodup
    simp [names, htag, hnew, hcomma, htail, Stretch.mention]

/-- What is read as a left-hand side are fresh names. -/
theorem isNames_of_names : ∀ (s : Lexed) {defined : List String} {ns : List String} {rest : Lexed},
    names defined s = ⟨ns, .ok rest⟩ →
      ∃ ts, s = prepend ts rest ∧ IsNames (ts.map Token.word) ns ∧ ns.Nodup ∧
        (∀ n ∈ ns, n ∉ defined) ∧ rest.Stops [.comma]
  | broken e, _, _, _, h => by simp [names, Stretch.failing] at h
  | done t, _, _, _, h => by simp [names, Stretch.failing] at h
  | token t tail, defined, ns, rest, h => by
    unfold names at h
    split at h
    · simp [Stretch.failing] at h
    · rename_i htag
      have htag : t.word.tag = .ident := not_not.mp htag
      split at h
      · simp [Stretch.failing] at h
      · rename_i hnew
        -- the last name, whatever tells that no other follows
        have hlast : [t.text] = ns → rest.Stops [.comma] → tail = rest →
            ∃ ts, token t tail = prepend ts rest ∧ IsNames (ts.map Token.word) ns ∧ ns.Nodup ∧
              (∀ n ∈ ns, n ∉ defined) ∧ rest.Stops [.comma] := by
          rintro rfl hstop rfl
          exact ⟨[t], rfl, .last htag, by simp, by simpa using hnew, hstop⟩
        cases tail with
        | broken e => simp [Stretch.mention, Stretch.failing] at h
        | done e =>
          simp only [Stretch.mention, Stretch.ending, Stretch.mk.injEq, Except.ok.injEq] at h
          obtain ⟨rfl, rfl⟩ := h
          exact hlast rfl trivial rfl
        | token c more =>
          by_cases hc : c.tag = .comma
          · simp only [hc, if_true, Stretch.mention, Stretch.mk.injEq] at h
            obtain ⟨rfl, hout⟩ := h
            have hmore : names (t.text :: defined) more =
                ⟨(names (t.text :: defined) more).mentioned, .ok rest⟩ := Stretch.eq_of_outcome hout
            obtain ⟨ts, rfl, hnames, hnodup, hfresh, hstop⟩ := isNames_of_names more hmore
            refine ⟨t :: c :: ts, rfl, .more htag hc hnames, ?_, ?_, hstop⟩
            · exact List.nodup_cons.mpr ⟨fun hm => hfresh _ hm List.mem_cons_self, hnodup⟩
            · refine List.forall_mem_cons.mpr ⟨hnew, ?_⟩
              intro n hn hd
              exact hfresh n hn (List.mem_cons_of_mem _ hd)
          · simp only [hc, if_false, Stretch.mention, Stretch.ending, Stretch.mk.injEq,
              Except.ok.injEq] at h
            obtain ⟨rfl, rfl⟩ := h
            exact hlast rfl (by simpa [Stops] using hc) rfl

/-- Reading a left-hand side succeeds exactly on fresh names, none of which stands twice. -/
theorem names_eq_ok_iff {s rest : Lexed} {defined ns : List String} :
    names defined s = ⟨ns, .ok rest⟩ ↔
      ∃ ts, s = prepend ts rest ∧ IsNames (ts.map Token.word) ns ∧ ns.Nodup ∧
        (∀ n ∈ ns, n ∉ defined) ∧ rest.Stops [.comma] := by
  constructor
  · exact isNames_of_names s
  · rintro ⟨ts, rfl, hnames, hnodup, hfresh, hstop⟩
    exact names_of_isNames hnames rfl hfresh hnodup hstop

/-! ## The right-hand side -/

/-- What a right-hand side is before: a token that neither joins operands nor expressions. -/
def Ends (s : Lexed) : Prop := s.Stops [.comma, .sumSign, .mulSign]

theorem expressions_of_isExpressions {w : List Word} {sums : List (List Word)} (h : IsExpressions w sums)
    {ts : List Token} (hw : ts.map Token.word = w) {rest : Lexed} (hend : rest.Ends) :
    expressions (prepend ts rest) = (sums.map idents, .ok rest) := by
  induction h generalizing ts with
  | @last w hsum =>
    have hread : operand 0 (prepend ts rest) = ⟨idents w, .ok rest⟩ :=
      operand_eq_ok_iff.mpr ⟨ts, rfl, hw ▸ hsum, by rw [hw], hend.mono (by simp)⟩
    rw [expressions.eq_def, hread]
    cases rest with
    | broken e => exact absurd hend id
    | done t => rfl
    | token c more =>
      have hc : c.tag ≠ .comma := fun hc => hend (by simp [hc])
      simp [hc]
  | @more w ws c sums hsum hc _ ih =>
    obtain ⟨us, vs', rfl, hu, hv'⟩ := List.map_eq_append_iff.mp hw
    obtain ⟨c, vs, rfl, rfl, hv⟩ := List.map_eq_cons_iff.mp hv'
    have hcomma : c.tag = .comma := hc
    have hread : operand 0 (prepend (us ++ c :: vs) rest) = ⟨idents w, .ok (token c (prepend vs rest))⟩ :=
      operand_eq_ok_iff.mpr ⟨us, by rw [prepend_append, prepend_cons], hu ▸ hsum, by rw [hu],
        by simp [Stops, hcomma]⟩
    rw [expressions.eq_def, hread]
    simp [hcomma, ih hv]

theorem isExpressions_of_expressions (s : Lexed) {groups : List (List String)} {rest : Lexed}
    (h : expressions s = (groups, .ok rest)) :
    ∃ ts sums, s = prepend ts rest ∧ IsExpressions (ts.map Token.word) sums ∧
      groups = sums.map idents ∧ rest.Ends := by
  fun_induction expressions s generalizing groups with
  | case1 s comma more hout hc later =>
    rename_i ih
    simp only [Prod.mk.injEq] at h
    obtain ⟨rfl, hlater⟩ := h
    obtain ⟨us, rfl, hsum, hm, -⟩ := operand_eq_ok_iff.mp (Stretch.eq_of_outcome hout)
    have hmore : expressions more = (later.1, .ok rest) := by rw [← hlater]
    obtain ⟨vs, sums, rfl, hexp, hgroups, hend⟩ := ih hmore
    refine ⟨us ++ comma :: vs, us.map Token.word :: sums, ?_, ?_, ?_, hend⟩
    · rw [prepend_append, prepend_cons]
    · rw [List.map_append, List.map_cons]
      exact .more hsum hc hexp
    · rw [List.map_cons, hm, hgroups]
  | case2 s comma more hout hc =>
    simp only [Prod.mk.injEq, Except.ok.injEq] at h
    obtain ⟨rfl, rfl⟩ := h
    obtain ⟨us, rfl, hsum, hm, hstop⟩ := operand_eq_ok_iff.mp (Stretch.eq_of_outcome hout)
    exact ⟨us, [us.map Token.word], rfl, .last hsum, by rw [hm]; rfl, hstop.cons hc⟩
  | case3 s hout =>
    simp only [Prod.mk.injEq] at h
    obtain ⟨rfl, hrest⟩ := h
    obtain ⟨us, rfl, hsum, hm, hstop⟩ := operand_eq_ok_iff.mp (Stretch.eq_of_outcome hrest)
    have hend : rest.Ends := by
      cases rest with
      | broken e => exact absurd hstop id
      | done t => trivial
      | token c more => exact absurd hrest (hout c more)
    exact ⟨us, [us.map Token.word], rfl, .last hsum, by rw [hm]; rfl, hend⟩

theorem expressions_eq_ok_iff {s rest : Lexed} {groups : List (List String)} :
    expressions s = (groups, .ok rest) ↔
      ∃ ts sums, s = prepend ts rest ∧ IsExpressions (ts.map Token.word) sums ∧
        groups = sums.map idents ∧ rest.Ends := by
  constructor
  · exact isExpressions_of_expressions s
  · rintro ⟨ts, sums, rfl, hexp, rfl, hend⟩
    exact expressions_of_isExpressions hexp rfl hend

/-! ## A whole line -/

theorem words_prepend (ts : List Token) (s : Lexed) :
    (prepend ts s).words = ts.map Token.word ++ s.words := by
  induction ts with
  | nil => rfl
  | cons t ts ih => rw [prepend_cons, words_token, ih, List.map_cons, List.cons_append]

theorem tokens_prepend (ts : List Token) (s : Lexed) : (prepend ts s).tokens = ts ++ s.tokens := by
  induction ts with
  | nil => rfl
  | cons t ts ih => rw [prepend_cons, tokens, ih, List.cons_append]

theorem mem_tokens_of_head {s : Lexed} {t : Token} (h : s.head = .ok t) : t ∈ s.tokens := by
  cases s with
  | token t' rest =>
    obtain rfl := Except.ok.inj h
    exact List.mem_cons_self
  | done t' =>
    obtain rfl := Except.ok.inj h
    exact List.mem_cons_self
  | broken e => cases h

theorem Proper.of_prepend {ts : List Token} {s : Lexed} (h : (prepend ts s).Proper) : s.Proper := by
  induction ts with
  | nil => exact h
  | cons t ts ih => exact ih h.2

theorem failure?_prepend (ts : List Token) (s : Lexed) : (prepend ts s).failure? = s.failure? := by
  induction ts with
  | nil => rfl
  | cons t ts ih => rw [prepend_cons, failure?, ih]

theorem end?_prepend (ts : List Token) (s : Lexed) : (prepend ts s).end? = s.end? := by
  induction ts with
  | nil => rfl
  | cons t ts ih => rw [prepend_cons, end?, ih]

/-- Without a failure there are tokens and then the end of the text. -/
theorem eq_prepend_done {s : Lexed} (h : s.failure? = none) : ∃ ts t, s = prepend ts (done t) := by
  induction s with
  | token t rest ih =>
    obtain ⟨ts, e, rfl⟩ := ih h
    exact ⟨t :: ts, e, rfl⟩
  | done t => exact ⟨[], t, rfl⟩
  | broken e => cases h

end Lexed

namespace Reading

open Lexed

/-- Reading a line comes to a token after the expressions exactly when names, an equals sign and
expressions stand before that token. -/
theorem ofLexed_eq_ok_iff {defined ns : List String} {groups : List (List String)} {s : Lexed}
    {finish : Token} :
    ofLexed defined s = ⟨ns, groups, .ok finish⟩ ↔
      ∃ l e r sums rest, s = prepend l (token e (prepend r rest)) ∧ IsNames (l.map Token.word) ns ∧
        ns.Nodup ∧ (∀ n ∈ ns, n ∉ defined) ∧ e.tag = .equalSign ∧
        IsExpressions (r.map Token.word) sums ∧ groups = sums.map idents ∧ rest.Ends ∧
        rest.head = .ok finish := by
  constructor
  · intro h
    unfold ofLexed at h
    cases hout : (s.names defined).outcome with
    | error e => simp [hout] at h
    | ok after =>
      simp only [hout] at h
      obtain ⟨l, rfl, hnames, hnodup, hfresh, hstop⟩ := names_eq_ok_iff.mp (Stretch.eq_of_outcome hout)
      cases after with
      | broken e => exact absurd hstop id
      | done t => simp at h
      | token e right =>
        by_cases he : e.tag = .equalSign
        · simp only [he, if_true, Reading.mk.injEq] at h
          obtain ⟨rfl, rfl, hhead⟩ := h
          cases hright : right.expressions.2 with
          | error e => simp [hright, Except.bind] at hhead
          | ok rest =>
            rw [hright] at hhead
            have hpair : right.expressions = (right.expressions.1, .ok rest) := Prod.ext rfl hright
            obtain ⟨r, sums, rfl, hexp, hgroups, hend⟩ := expressions_eq_ok_iff.mp hpair
            exact ⟨l, e, r, sums, rest, rfl, hnames, hnodup, hfresh, he, hexp, hgroups, hend, hhead⟩
        · simp [he] at h
  · rintro ⟨l, e, r, sums, rest, rfl, hnames, hnodup, hfresh, he, hexp, rfl, hend, hhead⟩
    have hleft : Lexed.names defined (prepend l (token e (prepend r rest))) =
        ⟨ns, .ok (token e (prepend r rest))⟩ :=
      names_eq_ok_iff.mpr ⟨l, rfl, hnames, hnodup, hfresh, by simp [Stops, he]⟩
    have hright : Lexed.expressions (prepend r rest) = (sums.map idents, .ok rest) :=
      expressions_eq_ok_iff.mpr ⟨r, sums, rfl, hexp, rfl, hend⟩
    simp [ofLexed, hleft, he, hright, Except.bind, hhead]

/-- **Reading comes to the end of the text** exactly on a word of the grammar whose names are fresh. -/
theorem ofLexed_endOfText_iff {defined ns : List String} {groups : List (List String)} {s : Lexed}
    (h : s.Proper) {finish : Token} :
    ofLexed defined s = ⟨ns, groups, .ok finish⟩ ∧ finish.tag = .endOfText ↔
      s.failure? = none ∧ s.end? = some finish ∧ ns.Nodup ∧ (∀ n ∈ ns, n ∉ defined) ∧
        ∃ sums, IsDeclLine s.words ns sums ∧ groups = sums.map idents := by
  constructor
  · rintro ⟨hread, htag⟩
    obtain ⟨l, e, r, sums, rest, rfl, hnames, hnodup, hfresh, he, hexp, rfl, -, hhead⟩ :=
      ofLexed_eq_ok_iff.mp hread
    have hproper : rest.Proper := h.of_prepend.2.of_prepend
    cases rest with
    | broken e => cases hhead
    | token t more =>
      obtain rfl := Except.ok.inj hhead
      exact absurd htag hproper.1
    | done t =>
      obtain rfl := Except.ok.inj hhead
      refine ⟨?_, ?_, hnodup, hfresh, sums, ?_, rfl⟩
      · rw [failure?_prepend, failure?, failure?_prepend, failure?]
      · rw [end?_prepend, end?, end?_prepend, end?]
      · rw [words_prepend, words_token, words_prepend, words_done]
        exact .line hnames he hexp htag
  · rintro ⟨hok, hend, hnodup, hfresh, sums, hline, rfl⟩
    obtain ⟨ts, t, rfl⟩ := eq_prepend_done hok
    have htag : t.tag = .endOfText := h.of_prepend
    obtain rfl : t = finish := by simpa [end?_prepend, end?] using hend
    rw [words_prepend, words_done] at hline
    generalize hws : ts.map Token.word ++ [t.word] = ws at hline
    cases hline with
    | @line l r e t' names sums hnames he hexp ht' =>
      rw [← List.cons_append, ← List.append_assoc] at hws
      obtain ⟨hts, ht⟩ := List.append_inj' hws rfl
      obtain ⟨ls, rs', rfl, rfl, hrs⟩ := List.map_eq_append_iff.mp hts
      obtain ⟨e, rs, rfl, rfl, rfl⟩ := List.map_eq_cons_iff.mp hrs
      refine ⟨ofLexed_eq_ok_iff.mpr ⟨ls, e, rs, sums, done t, ?_, hnames, hnodup, hfresh, he, hexp, rfl,
        trivial, rfl⟩, htag⟩
      rw [prepend_append, prepend_cons]

end Reading

end EvalOrder
