import EvalOrder.Proofs.Attempts
import EvalOrder.Proofs.Selections

/-!
# Lines that call a name of their own

Of what is wrong with a line one thing is reported. Whether the line calls a name of its own is asked when it has been
read up to the token behind its declaration, and has turned out to have as many names as expressions; it is asked before
that token is looked at. So whatever is wrong with the names, with the expressions up to that token, or with their
numbers comes first, and whatever is wrong behind it is not seen.

Results:
* `find?_distinct`, `forall₂_callPairs`: the calls of a line by name and by handle.
* `firstOwnCall_of_enter`: the call that is reported is the first.
* `enter_cyclic_iff_reading`: when it is reported, in terms of what was read.
* `enter_of_circular`, `circular_of_enter`: in terms of the line.
* `Arises.named`, `named_enter`: in every graph and session names are found as this requires.
* **`cyclic_attempt_iff`**: the lines that any session comes to.
-/

namespace EvalOrder

open Grammar

/-! ## First calls -/

/-- Of the names of a line, `x` is the one whose expression is the first to call any of them, and `y` the one that this
expression calls first. -/
def FirstOwnCall (names : List String) (expressions : List (List String)) (x y : String) : Prop :=
  ∃ before calls after, names.zip expressions = before ++ (x, calls) :: after ∧
    calls.find? (· ∈ names) = some y ∧ ∀ p ∈ before, ∀ z ∈ p.2, z ∉ names

/-- The first value with a property is the first that is met. -/
theorem find?_distinct {α : Type} [DecidableEq α] (p : α → Bool) (xs : List α) :
    (distinct xs).find? p = xs.find? p := by
  have hstep : ∀ acc : List α, (addAll acc xs).find? p = (acc ++ xs).find? p := by
    induction xs with
    | nil => simp [addAll]
    | cons x xs ih =>
      intro acc
      have hcons : addAll acc (x :: xs) = addAll (addNew acc x) xs := rfl
      rw [hcons, ih, addNew]
      split
      · rename_i hx
        rw [List.find?_append, List.find?_append, List.find?_cons]
        cases hp : p x with
        | true =>
          have hsome : (acc.find? p).isSome := List.find?_isSome.mpr ⟨x, hx, hp⟩
          rw [Option.or_of_isSome hsome, Option.or_of_isSome hsome]
        | false => rfl
      · rw [List.append_assoc, List.singleton_append]
  exact hstep []

theorem rel_find? {α β : Type} {R : α → β → Prop} {p : α → Bool} {q : β → Bool}
    (hpq : ∀ a b, R a b → p a = q b) {xs : List α} {ys : List β} (h : List.Forall₂ R xs ys) :
    Option.Rel R (xs.find? p) (ys.find? q) := by
  induction h with
  | nil => exact .none
  | @cons a b xs ys hab _ ih =>
    rw [List.find?_cons, List.find?_cons, hpq a b hab]
    cases q b with
    | true => exact .some hab
    | false => exact ih

/-- The first pair that a list of names with their calls comes to, in which the call is one of the names. -/
theorem firstOwnCall_of_find? {names : List String} {expressions : List (List String)} {x y : String}
    (h : ((names.zip expressions).flatMap fun p => (distinct p.2).map fun z => (p.1, z)).find? (·.2 ∈ names) =
      some (x, y)) : FirstOwnCall names expressions x y := by
  rw [List.find?_flatMap] at h
  obtain ⟨before, ⟨x', calls⟩, after, hsplit, hfound, hbefore⟩ := List.findSome?_eq_some_iff.mp h
  rw [List.find?_map] at hfound
  obtain ⟨z, hz, he⟩ := Option.map_eq_some_iff.mp hfound
  obtain ⟨rfl, rfl⟩ := Prod.mk.inj he
  refine ⟨before, calls, after, hsplit, (find?_distinct _ calls).symm.trans hz, fun p hp z hzp hmem => ?_⟩
  have hnone := hbefore p hp
  rw [List.find?_map, Option.map_eq_none_iff, List.find?_eq_none] at hnone
  exact hnone z (mem_distinct.mpr hzp) (by simpa using hmem)

namespace Session

open EvalOrder.Graph

variable {s : Session} {c : Cursor} {line : String}

/-- The calls of a line by name and by handle. -/
theorem forall₂_callPairs {g : Graph} {expressions : List (List String)} {calls : List (List Handle)}
    (hcalls : List.Forall₂ (fun ns hs => (distinct ns).map g.find? = hs.map some) expressions calls)
    {names : List String} {declared : List Handle} (hdeclared : names.map g.find? = declared.map some) :
    List.Forall₂ (fun p q => g.find? p.1 = some q.1 ∧ g.find? p.2 = some q.2)
      ((names.zip expressions).flatMap fun p => (distinct p.2).map fun z => (p.1, z))
      (callPairs declared calls) := by
  induction hcalls generalizing names declared with
  | nil => simp [callPairs]
  | @cons ns hs expressions calls hgroup _ ih =>
    cases names with
    | nil =>
      obtain rfl : declared = [] := by simpa using hdeclared.symm
      exact .nil
    | cons x names =>
      cases declared with
      | nil => cases hdeclared
      | cons a declared =>
        obtain ⟨ha, hdeclared⟩ := List.cons.inj hdeclared
        have hpairs : callPairs (a :: declared) (hs :: calls) =
            hs.map (fun b => (a, b)) ++ callPairs declared calls := rfl
        rw [hpairs, List.zip_cons_cons, List.flatMap_cons]
        refine List.rel_append ?_ (ih hdeclared)
        rw [List.forall₂_map_left_iff, List.forall₂_map_right_iff]
        rw [← List.forall₂_eq_eq_eq, List.forall₂_map_left_iff, List.forall₂_map_right_iff] at hgroup
        exact hgroup.imp fun z b hzb => ⟨ha, hzb⟩

/-- **The call that is reported is the first.** -/
theorem firstOwnCall_of_enter (hs : s.graph.Named) (hc : c.Bounded) {x y : String}
    (h : (s.enter c).outcome = .error (.cyclic (.onLine x y))) :
    FirstOwnCall (s.reading c).names (s.reading c).expressions x y := by
  obtain ⟨hnamed, hdeclared, hcalls⟩ := noted_names hs c
  have hproper := proper_ofCursor hc
  have hway := way_enter hs c
  generalize s.enter c = entry at hway h
  cases hway with
  | noToken hhead =>
    obtain ⟨m, hm⟩ := (Lexed.head_blames hhead).malformed hproper
    cases hm.symm.trans (Except.error.inj h)
  | unread _ hout =>
    obtain ⟨m, hm⟩ := (Reading.ofLexed_blames hout).malformed hproper
    cases hm.symm.trans (Except.error.inj h)
  | unmatched _ _ _ => cases h
  | @circular _ _ pre post a b v w _ _ _ hpairs hpre hb hv hw =>
    obtain ⟨rfl, rfl⟩ : v.name = x ∧ w.name = y := by simpa using h
    have hrel := forall₂_callPairs hcalls hdeclared
    have hown : ∀ (p : String × String) (q : Handle × Handle),
        ((s.noted c).graph.find? p.1 = some q.1 ∧ (s.noted c).graph.find? p.2 = some q.2) →
          decide (p.2 ∈ (s.reading c).names) = decide (q.2 ∈ s.declaring c) := by
      rintro p q ⟨-, hq⟩
      rw [decide_eq_decide, mem_iff_exists_name hdeclared]
      refine ⟨fun hp => ⟨p.2, hp, hq⟩, ?_⟩
      rintro ⟨z, hz, hzq⟩
      exact hnamed.injective hzq hq ▸ hz
    have hfirst : (callPairs (s.declaring c) (s.calling c)).find? (·.2 ∈ s.declaring c) = some (a, b) :=
      List.find?_eq_some_iff_append.mpr ⟨by simpa using hb, pre, post, hpairs, by simpa using hpre⟩
    have hfound := rel_find? hown hrel
    rw [hfirst] at hfound
    generalize hpair : List.find? _ _ = pair at hfound
    cases hfound with
    | @some p _ hp =>
      obtain ⟨v', hv', hname⟩ := hnamed _ _ hp.1
      obtain ⟨w', hw', hname'⟩ := hnamed _ _ hp.2
      obtain rfl := Option.some.inj (hv.symm.trans hv')
      obtain rfl := Option.some.inj (hw.symm.trans hw')
      rw [hname, hname']
      exact firstOwnCall_of_find? hpair
  | formula _ _ _ _ =>
    split at h
    · cases h
    · cases h

/-- A circle is reported of a line that is read to the token behind its declaration, has as many names as expressions,
and calls one of them. -/
theorem enter_cyclic_iff_reading (hs : s.graph.Named) (hc : c.Bounded) :
    (∃ circle, (s.enter c).outcome = .error (.cyclic circle)) ↔
      (∃ finish, (s.reading c).outcome = .ok finish) ∧
        (s.reading c).names.length = (s.reading c).expressions.length ∧
        ∃ x ∈ (s.reading c).expressions.flatten, x ∈ (s.reading c).names := by
  have hproper := proper_ofCursor hc
  have hapart := callPairs_apart_iff (c := c) hs
  have hway := way_enter hs c
  rw [← length_declaring hs, ← length_calling hs]
  generalize s.enter c = entry at hway ⊢
  cases hway with
  | noToken hhead =>
    obtain ⟨m, rfl⟩ := (Lexed.head_blames hhead).malformed hproper
    simp [s.reading_of_head_error hhead]
  | unread _ hout =>
    obtain ⟨m, rfl⟩ := (Reading.ofLexed_blames hout).malformed hproper
    simp [hout]
  | unmatched _ _ hlen => simp [hlen, Cursor.malformed]
  | @circular _ finish pre post a b _ _ _ hout hlen hpairs _ hb _ _ =>
    refine iff_of_true ⟨_, rfl⟩ ⟨⟨finish, hout⟩, hlen, ?_⟩
    by_contra hnone
    exact (hapart hlen).mpr (fun x hx hmem => hnone ⟨x, hx, hmem⟩) (a, b) (by simp [hpairs]) hb
  | formula _ _ hlen hnames =>
    refine iff_of_false ?_ ?_
    · rintro ⟨circle, h⟩
      split at h
      · cases h
      · cases h
    · rintro ⟨-, -, x, hx, hmem⟩
      exact (hapart hlen).mp hnames x hx hmem

end Session

/-! ## Circular lines -/

/-- Behind lines that define `defined`, the line is circular: it opens with a declaration of as many names as
expressions, whose names are fresh, and an expression calls one of them. What stands behind the token that ends the last
expression does not matter. -/
structure Circular (defined : List String) (line : String) (names : List String) (sums : List (List Word)) : Prop where
  opens : Opens line names sums
  matched : names.length = sums.length
  nodup : names.Nodup
  fresh : ∀ x ∈ names, x ∉ defined
  calls : ∃ sum ∈ sums, ∃ x ∈ idents sum, x ∈ names

namespace Graph

variable {g g' : Graph}

theorem Named.recolored (hg : g.Named) (h : g.Recolored g') : g'.Named := by
  intro x i hx
  rw [find?, h.names] at hx
  obtain ⟨v, hv, rfl⟩ := hg x i hx
  have hname := h.nameOf? i
  rw [nameOf?, nameOf?, hv, Option.map_some] at hname
  exact Option.map_eq_some_iff.mp hname

/-- In every graph that operations lead to, names are found at vertices that are called by them. -/
theorem Arises.named (h : g.Arises) : g.Named := by
  induction h with
  | empty => exact wellFormed_empty.named
  | register name _ ih => exact ih.register name
  | @addRelated g g' source target _ _ h ih =>
    have hsource : source < g.size := by
      by_contra hnot
      have hnone : g.vertices[source]? = none := Array.getElem?_eq_none (Nat.le_of_not_lt hnot)
      simp [Graph.addRelated, modify, get, hnone, bind, Except.bind] at h
    obtain rfl := Except.ok.inj ((addRelated_eq hsource target).symm.trans h)
    exact ih.addEdges [(source, target)]
  | addFormula label _ _ _ ih => exact ih.addFormula label _ _
  | link _ ih => exact ih.addEdges _
  | sort _ _ ih => exact ih.recolored (recolored_sort _ _)

end Graph

namespace Session

open EvalOrder.Graph

variable {s : Session} {c : Cursor} {line : String}

/-- A circular line is refused with its first call of a name of its own. -/
theorem enter_of_circular (hs : s.graph.Named) (hc : IsLineCursor c line) {names : List String}
    {sums : List (List Word)} (h : Circular s.defined line names sums) :
    ∃ x y, FirstOwnCall names (sums.map idents) x y ∧ (s.enter c).outcome = .error (.cyclic (.onLine x y)) := by
  obtain ⟨finish, hread⟩ := (s.reading_opens_iff hc).mpr ⟨h.nodup, h.fresh, sums, h.opens, rfl⟩
  obtain ⟨sum, hsum, x, hx, hmem⟩ := h.calls
  have hcalls : ∃ x ∈ (sums.map idents).flatten, x ∈ names :=
    ⟨x, List.mem_flatten.mpr ⟨_, List.mem_map_of_mem hsum, hx⟩, hmem⟩
  have hcyclic : ∃ circle, (s.enter c).outcome = .error (.cyclic circle) := by
    rw [enter_cyclic_iff_reading hs hc.bounded, hread]
    exact ⟨⟨finish, rfl⟩, by rw [h.matched, List.length_map], hcalls⟩
  obtain ⟨circle, hcircle⟩ := hcyclic
  rcases enter_error hs hc.bounded hcircle with ⟨m, hm⟩ | ⟨x, y, hxy⟩
  · cases hm
  · rw [hxy] at hcircle
    have hfirst := firstOwnCall_of_enter hs hc.bounded hcircle
    rw [hread] at hfirst
    exact ⟨x, y, hfirst, hcircle⟩

/-- A circle is reported of circular lines only. -/
theorem circular_of_enter (hs : s.graph.Named) (hc : IsLineCursor c line) {circle : Cycle}
    (h : (s.enter c).outcome = .error (.cyclic circle)) : ∃ names sums, Circular s.defined line names sums := by
  obtain ⟨⟨finish, hout⟩, hlen, x, hx, hmem⟩ := (enter_cyclic_iff_reading hs hc.bounded).mp ⟨circle, h⟩
  obtain ⟨hnodup, hfresh, sums, hopens, hgroups⟩ := (s.reading_opens_iff hc).mp
    ⟨finish, (by rw [← hout] : s.reading c = ⟨(s.reading c).names, (s.reading c).expressions, _⟩)⟩
  rw [hgroups] at hlen hx
  obtain ⟨_, hgroup, hx⟩ := List.mem_flatten.mp hx
  obtain ⟨sum, hsum, rfl⟩ := List.mem_map.mp hgroup
  exact ⟨_, sums, hopens, by rw [hlen, List.length_map], hnodup, hfresh, sum, hsum, x, hx, hmem⟩

/-! ## Any session -/

/-- A session goes on finding names at vertices that are called by them, whatever lines it enters. -/
theorem named_enter (hs : s.graph.Named) (c : Cursor) : (s.enter c).session.graph.Named := by
  obtain ⟨hnoted, -⟩ := noted_names hs c
  have hway := way_enter hs c
  generalize s.enter c = entry at hway ⊢
  cases hway with
  | noToken _ => exact hs
  | unread _ _ => exact hnoted
  | unmatched _ _ _ => exact hnoted
  | circular _ _ _ _ _ _ _ _ => exact hnoted.addEdges _
  | formula _ _ _ _ => exact (hnoted.addEdges _).addFormula _ _ _

/-- **When a circle within a line is reported.** Of the lines that a session comes to in any texts, whatever it has read
before and whatever its graph holds besides, a circle is reported of the circular ones; it is the first call of a name
of the line. Every other line that is refused is malformed. -/
theorem cyclic_attempt_iff (hs : s.graph.Named) (texts : List String) {a : Attempt} (ha : a ∈ s.attempts texts) :
    ((∃ circle, a.entry.outcome = .error (.cyclic circle)) ↔
      ∃ names sums, Circular a.session.defined a.line names sums) ∧
    (∀ names sums, Circular a.session.defined a.line names sums →
      ∃ x y, FirstOwnCall names (sums.map idents) x y ∧ a.entry.outcome = .error (.cyclic (.onLine x y))) ∧
    (∀ e, a.entry.outcome = .error e → (¬ ∃ names sums, Circular a.session.defined a.line names sums) →
      ∃ m, e = .malformed m) := by
  obtain ⟨hnamed, hc⟩ := attempts_induction (P := fun s => s.graph.Named) (fun _ c h => named_enter h c)
    (fun _ h => h.addEdges _) hs texts a ha
  refine ⟨⟨fun ⟨_, h⟩ => circular_of_enter hnamed hc h, ?_⟩, fun _ _ h => enter_of_circular hnamed hc h,
    fun e he hnot => ?_⟩
  · rintro ⟨names, sums, h⟩
    obtain ⟨x, y, -, hout⟩ := enter_of_circular hnamed hc h
    exact ⟨_, hout⟩
  · rcases enter_error hnamed hc.bounded he with hm | ⟨x, y, rfl⟩
    · exact hm
    · exact absurd (circular_of_enter hnamed hc he) hnot

/-- The line `a, b = a` calls a name of its own, but has one expression too few. The bracket behind `c, d = 1, d + c` is
not come to: the second expression calls both names, and `d` first. -/
theorem cyclic_attempt_before_bracket : ∃ a ∈ attempts {} ["a, b = a", "c, d = 1, d + c )"],
    ∃ b ∈ attempts {} ["a, b = a", "c, d = 1, d + c )"],
      (a.line = "a, b = a" ∧ ¬ ∃ names sums, Circular a.session.defined a.line names sums) ∧
      b.line = "c, d = 1, d + c )" ∧ ∃ names sums, Circular b.session.defined b.line names sums ∧
        FirstOwnCall names (sums.map idents) "d" "d" := by
  have hnamed : ({} : Session).graph.Named := wellFormed_empty.graph.named
  have hattempts : (attempts {} ["a, b = a", "c, d = 1, d + c )"]).map (fun a => (a.line, a.entry.outcome)) =
      [("a, b = a", .error (.malformed ⟨⟨9, 2, 1⟩, .badDeclaration⟩)),
        ("c, d = 1, d + c )", .error (.cyclic (.onLine "d" "d")))] := by decide +kernel
  obtain ⟨a, rest, hall, ha, hrest⟩ := List.map_eq_cons_iff.mp hattempts
  obtain ⟨b, rest, rfl, hb, -⟩ := List.map_eq_cons_iff.mp hrest
  obtain ⟨hline, hout⟩ := Prod.mk.inj ha
  obtain ⟨hline', hout'⟩ := Prod.mk.inj hb
  have ha : a ∈ attempts {} ["a, b = a", "c, d = 1, d + c )"] := by simp [hall]
  have hb : b ∈ attempts {} ["a, b = a", "c, d = 1, d + c )"] := by simp [hall]
  obtain ⟨hiff, -, -⟩ := cyclic_attempt_iff hnamed _ ha
  obtain ⟨hiff', hfirst, -⟩ := cyclic_attempt_iff hnamed _ hb
  obtain ⟨names, sums, hcircular⟩ := hiff'.mp ⟨_, hout'⟩
  obtain ⟨x, y, hown, hxy⟩ := hfirst names sums hcircular
  obtain ⟨rfl, rfl⟩ : "d" = x ∧ "d" = y := by simpa using hout'.symm.trans hxy
  refine ⟨a, ha, b, hb, ⟨hline, fun h => ?_⟩, hline', names, sums, hcircular, hown⟩
  obtain ⟨circle, hcircle⟩ := hiff.mpr h
  cases hout.symm.trans hcircle

end Session

end EvalOrder
