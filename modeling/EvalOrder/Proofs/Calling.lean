import EvalOrder.Proofs.Entry

/-!
# Reading an expression is exact

An expression is a sum in front of a token that no operator is. One token ahead tells where it ends, so a stream
of tokens can be split into a sum and what follows it in one way at most; reading finds the split if there is one
and refuses the stream if there is none.

The names that an expression calls are noted one at a time as it is read: a name is registered, put in the bucket
of the expression unless it is there, and remembered as called. `Session.note` registers the names of a whole line
and fills the buckets afterwards, which comes to the same.

Results:
* `note_eq_callGroups`: noting the names of a line is declaring the left-hand side and calling the names of
  each expression in turn.
* `calls_callAll`: what calling names adds to a bucket and to the names called.
* `Splits.unique`: a stream splits in one way.
* **`operand_exact`**: reading an expression finds the split of a stream, calls the identifiers of the sum and
  nothing else, and fails with malformed text on a stream without a split.
-/

namespace EvalOrder

open Grammar

namespace Session

/-! ## Calling names -/

/-- Call a name: register it, put it in the bucket of the expression and remember it. -/
def call (s : Session) (bucket : List Handle) (name : String) : Session × List Handle :=
  let (h, g) := s.graph.register name
  ({ s with graph := g, called := addNew s.called name }, addNew bucket h)

/-- Call names in order. -/
def callAll (s : Session) (bucket : List Handle) : List String → Session × List Handle
  | [] => (s, bucket)
  | name :: more =>
    let (s, bucket) := s.call bucket name
    s.callAll bucket more

/-- Call the names of expressions in order, each into a bucket of its own. -/
def callGroups (s : Session) : List (List String) → Session × List (List Handle)
  | [] => (s, [])
  | group :: more =>
    let (s, bucket) := s.callAll [] group
    let (s, buckets) := s.callGroups more
    (s, bucket :: buckets)

/-- Register the names of a left-hand side as declared. -/
def declareAll (s : Session) (names : List String) : List Handle × Session :=
  let (declared, g) := s.graph.registerAll names
  (declared, { s with graph := g, defined := s.defined ++ names })

/-- Names may as well be registered first and noted afterwards. -/
theorem callAll_eq (names : List String) (s : Session) (bucket : List Handle) :
    s.callAll bucket names =
      ({ s with graph := (s.graph.registerAll names).2, called := addAll s.called names },
        addAll bucket (s.graph.registerAll names).1) := by
  induction names generalizing s bucket with
  | nil => rfl
  | cons name names ih => exact ih _ _

theorem callGroups_eq (groups : List (List String)) (s : Session) :
    s.callGroups groups =
      ({ s with graph := (s.graph.registerGroups groups).2, called := addAll s.called groups.flatten },
        (s.graph.registerGroups groups).1.map distinct) := by
  induction groups generalizing s with
  | nil => rfl
  | cons group groups ih =>
    simp only [callGroups, callAll_eq, ih, Graph.registerGroups, List.flatten_cons, addAll_append,
      List.map_cons]
    rfl

/-- **Noting the names of a line** is declaring the left-hand side and then calling the names of each expression,
as they are met, into a bucket that begins empty. -/
theorem note_eq_callGroups (s : Session) (r : Reading) :
    s.note r =
      let (declared, s) := s.declareAll r.names
      let (s, buckets) := s.callGroups r.expressions
      (declared, buckets, s) := by
  simp only [declareAll, callGroups_eq]
  rfl

/-- What calling names adds. The bucket gets the handles of the names that it has not yet, each once and in the order
they are first met; the names called get the names. -/
structure Calls (s : Session) (bucket : List Handle) (names : List String) (after : Session × List Handle) :
    Prop where
  grows : s.graph.Extends after.1.graph
  bucket : ∃ added, after.2 = bucket ++ added ∧
    ((distinct names).filter fun x => after.1.graph.find? x ∉ bucket.map some).map after.1.graph.find? =
      added.map some
  called : after.1.called = addAll s.called names
  defined : after.1.defined = s.defined

theorem calls_callAll {s : Session} (hs : s.graph.Named) (bucket : List Handle) (names : List String) :
    s.Calls bucket names (s.callAll bucket names) := by
  obtain ⟨hext, hfind⟩ := Graph.extends_registerAll names s.graph
  have hdistinct := (hs.registerAll names).distinct_find? hfind
  rw [callAll_eq]
  refine ⟨hext, ⟨_, addAll_eq_append_filter bucket _, ?_⟩, rfl, rfl⟩
  generalize (s.graph.registerAll names).2 = g at hdistinct
  generalize (s.graph.registerAll names).1 = handles at hdistinct
  calc
    ((distinct names).filter fun x => g.find? x ∉ bucket.map some).map g.find?
      = ((distinct names).map g.find?).filter (· ∉ bucket.map some) := by
        rw [List.filter_map]
        rfl
    _ = ((distinct handles).map some).filter (· ∉ bucket.map some) := by rw [hdistinct]
    _ = ((distinct handles).filter (· ∉ bucket)).map some := by
        rw [List.filter_map]
        refine congrArg (List.map some) (List.filter_congr fun h _ => decide_eq_decide.mpr ?_)
        simp

end Session

namespace Lexed

/-! ## Splitting a stream -/

/-- A stream of tokens is a sum and then a token that does not go on with it. -/
structure Splits (s : Lexed) (sum : List Token) (rest : Lexed) : Prop where
  eq_prepend : s = prepend sum rest
  isSum : IsSum (sum.map Token.word)
  stops : rest.Stops [.sumSign, .mulSign]

theorem Splits.operand_eq {s rest : Lexed} {sum : List Token} (h : s.Splits sum rest) :
    operand 0 s = ⟨idents (sum.map Token.word), .ok rest⟩ :=
  operand_eq_ok_iff.mpr ⟨sum, h.eq_prepend, h.isSum, rfl, h.stops⟩

theorem outcome_eq_ok_iff {s rest : Lexed} :
    (operand 0 s).outcome = .ok rest ↔ ∃ sum, s.Splits sum rest := by
  constructor
  · intro h
    obtain ⟨sum, hs, hsum, -, hstops⟩ := operand_eq_ok_iff.mp (Stretch.eq_of_outcome h)
    exact ⟨sum, hs, hsum, hstops⟩
  · rintro ⟨sum, h⟩
    rw [h.operand_eq]

theorem prepend_injective (rest : Lexed) : Function.Injective (prepend · rest) := by
  intro ts us h
  have htokens : ts ++ rest.tokens = us ++ rest.tokens := by
    rw [← tokens_prepend, ← tokens_prepend]
    exact congrArg tokens h
  exact List.append_cancel_right htokens

/-- Reading finds each split, so there is one at most. -/
theorem Splits.unique {s rest rest' : Lexed} {sum sum' : List Token} (h : s.Splits sum rest)
    (h' : s.Splits sum' rest') : sum = sum' ∧ rest = rest' := by
  have hread := h.operand_eq.symm.trans h'.operand_eq
  obtain rfl : rest = rest' := Except.ok.inj (Stretch.mk.inj hread).2
  exact ⟨prepend_injective rest (h.eq_prepend.symm.trans h'.eq_prepend), rfl⟩

/-- **Reading an expression is exact.** It succeeds with what follows a sum exactly if the stream splits there, which
it does in one place at most. It then calls the identifiers of the sum, whatever the session knew and the bucket held
before. A stream that does not split is malformed. -/
theorem operand_exact {s : Lexed} (hs : s.Proper) :
    (∀ rest, (operand 0 s).outcome = .ok rest ↔ ∃ sum, s.Splits sum rest) ∧
    (∀ sum rest sum' rest', s.Splits sum rest → s.Splits sum' rest' → sum = sum' ∧ rest = rest') ∧
    (∀ sum rest, s.Splits sum rest → ∀ (session : Session) (bucket : List Handle), session.graph.Named →
      session.Calls bucket (idents (sum.map Token.word)) (session.callAll bucket (operand 0 s).mentioned)) ∧
    ((¬ ∃ sum rest, s.Splits sum rest) → ∃ m, (operand 0 s).outcome = .error (.malformed m)) := by
  refine ⟨fun _ => outcome_eq_ok_iff, fun _ _ _ _ h h' => h.unique h', ?_, fun hsplits => ?_⟩
  · intro sum rest h session bucket hnamed
    rw [h.operand_eq]
    exact Session.calls_callAll hnamed bucket _
  · cases hout : (operand 0 s).outcome with
    | ok rest =>
      obtain ⟨sum, h⟩ := outcome_eq_ok_iff.mp hout
      exact absurd ⟨sum, rest, h⟩ hsplits
    | error e =>
      obtain ⟨m, rfl⟩ := (operand_blames 0 s hout).malformed hs
      exact ⟨m, rfl⟩

/-- Where `b` has been called before, `a` is called once by the sum that `a+(b-a)*b,c` begins with. The line `a+(b` does
not split. -/
theorem operand_exact_brackets :
    ∃ s t : Lexed, s.Proper ∧ t.Proper ∧
      s.words.map Word.text = ["a", "+", "(", "b", "-", "a", ")", "*", "b", ",", "c", ""] ∧
      t.words.map Word.text = ["a", "+", "(", "b", ""] ∧
      (∃ sum rest, s.Splits sum rest ∧ rest.words.map Word.text = [",", "c", ""] ∧
        ∃ session : Session, session.graph.Named ∧ session.graph.find? "b" = some 0 ∧
          session.Calls [0] (idents (sum.map Token.word)) (session.callAll [0] (operand 0 s).mentioned) ∧
          (session.callAll [0] (operand 0 s).mentioned).2 = [0, 1]) ∧
      ¬ ∃ sum rest, t.Splits sum rest := by
  let s := Lexed.ofCursor (.ofString "a+(b-a)*b,c")
  let t := Lexed.ofCursor (.ofString "a+(b")
  let session : Session := { graph := (({} : Graph).register "b").2, called := ["b"] }
  have hs : s.Proper := proper_ofCursor (Cursor.ofString_bounded _)
  have ht : t.Proper := proper_ofCursor (Cursor.ofString_bounded _)
  have hnamed : session.graph.Named := Graph.wellFormed_empty.named.register "b"
  have hread : (operand 0 s).outcome.toOption.map (·.words.map Word.text) = some [",", "c", ""] := by decide +kernel
  have hrefused : (operand 0 t).outcome.toOption = none := by decide +kernel
  obtain ⟨hiff, -, hcalls, -⟩ := operand_exact hs
  obtain ⟨hiff', -⟩ := operand_exact ht
  cases hout : (operand 0 s).outcome with
  | error e =>
    rw [hout] at hread
    cases hread
  | ok rest =>
    obtain ⟨sum, hsum⟩ := (hiff rest).mp hout
    rw [hout] at hread
    refine ⟨s, t, hs, ht, by decide +kernel, by decide +kernel, ⟨sum, rest, hsum, Option.some.inj hread, session,
      hnamed, by decide, hcalls sum rest hsum session [0] hnamed, by decide +kernel⟩, ?_⟩
    rintro ⟨sum', rest', hsum'⟩
    rw [(hiff' rest').mpr ⟨sum', hsum'⟩] at hrefused
    cases hrefused

end Lexed

end EvalOrder
