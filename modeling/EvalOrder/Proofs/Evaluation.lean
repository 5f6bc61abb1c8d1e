import EvalOrder.Evaluation
import EvalOrder.Proofs.TextGraph

/-!
# The answer for a text

Reading and sorting together: a text is malformed, or one of its lines calls a name of its own, or its lines
call each other in a circle, or else they are ordered, and the order passes the check. There is no other
answer (`Answer`), so what is printed is one of three things.

Results:
* `answer_orderLabels`: the four answers.
* **`orderLabels_spec`**: the labels are the lines unindented, each once, and each after those it calls.
* **`run_outcome`**: what is printed, and when.
-/

namespace EvalOrder

open EvalOrder.Graph

/-! ## The four answers -/

/-- What comes of a text. -/
inductive Answer (text : String) : Except Failure (List String) → Prop
  | malformed {m : Malformed} : readFormulas text = .error (.malformed m) →
      Answer text (.error (.malformed m))
  | ownCall {x y : String} : readFormulas text = .error (.cyclic (.onLine x y)) →
      Answer text (.error (.cyclic (.onLine x y)))
  | circular {g : Graph} {labels : List String} : readFormulas text = .ok g →
      g.order.2 = .error (.cyclic (.acrossLines labels)) →
      Answer text (.error (.cyclic (.acrossLines labels)))
  | ordered {g : Graph} {ordered : List Handle} {labels : List String} : readFormulas text = .ok g →
      g.order.2 = .ok ordered → ordered.Perm g.formulas → g.Topological ordered →
      g.labels ordered = .ok labels → Answer text (.ok labels)

/-- **There is no other answer.** -/
theorem answer_orderLabels (text : String) : Answer text (orderLabels text) := by
  rw [orderLabels_eq]
  cases hread : readFormulas text with
  | error e =>
    rcases readFormulas_error hread with ⟨m, rfl⟩ | ⟨x, y, rfl⟩
    · exact .malformed hread
    · exact .ownCall hread
  | ok g =>
    have hlinked := (renders_readFormulas hread).linked
    have horders := orders hlinked
    have hchecks : ∀ g' ordered, g.order = (g', .ok ordered) → g'.checkOrder ordered = .ok () :=
      fun _ _ h => checkOrder_of_orders hlinked h
    have hcircular : ∀ labels, g.order.2 = .error (.cyclic (.acrossLines labels)) →
        Answer text (.error (.cyclic (.acrossLines labels))) := fun _ h => .circular hread h
    have hordered : ∀ ordered labels, g.order.2 = .ok ordered → ordered.Perm g.formulas →
        g.Topological ordered → g.labels ordered = .ok labels → Answer text (.ok labels) :=
      fun _ _ h hperm htop hlabels => .ordered hread h hperm htop hlabels
    simp only [bind, Except.bind]
    generalize g.order = result at horders hchecks hcircular hordered ⊢
    cases horders with
    | circular _ _ _ _ => exact hcircular _ rfl
    | @sorted g' ordered hsame hperm _ htop =>
      have hin : ∀ i ∈ ordered, i < g.size := fun i hi => hlinked.inRange i (hperm.mem_iff.mp hi)
      obtain ⟨labels, hlabels⟩ := exists_labels hin
      simp only [hchecks g' ordered rfl, hsame.labels_eq_ok_iff.mpr hlabels]
      exact hordered ordered labels rfl hperm htop hlabels

/-- There is an order exactly if the text is accepted and no line calls itself through others. -/
theorem orderLabels_eq_ok_iff {text : String} : (∃ labels, orderLabels text = .ok labels) ↔
    (∃ g, readFormulas text = .ok g) ∧ ¬ ∃ line, Relation.TransGen (LineCalls text) line line := by
  have hanswer := answer_orderLabels text
  generalize orderLabels text = result at hanswer
  cases hanswer with
  | malformed hread => simp [hread]
  | ownCall hread => simp [hread]
  | circular hread horder =>
    have hcircle := (order_error_iff_calls hread).mp ⟨_, horder⟩
    exact iff_of_false (fun ⟨_, h⟩ => by cases h) fun h => h.2 hcircle
  | @ordered g _ labels hread horder _ _ _ =>
    refine iff_of_true ⟨labels, rfl⟩ ⟨⟨g, hread⟩, ?_⟩
    rw [← order_error_iff_calls hread, horder]
    simp

/-! ## The labels -/

theorem Graph.eq_map_of_labels {g : Graph} {hs : List Handle} {ls : List String}
    (h : g.labels hs = .ok ls) : ls = hs.map g.labelOrEmpty := by
  rw [labels_eq_ok_iff] at h
  induction h with
  | nil => rfl
  | cons hname _ ih => rw [List.map_cons, ← ih, labelOrEmpty, hname, Option.getD_some]

/-- The labels of the formulas are the lines unindented. -/
theorem Graph.Renders.map_label {g : Graph} {text : String} (h : g.Renders text) :
    g.formulas.map g.labelOrEmpty = (textLines text).map unindented := by
  refine (eq_map_of_labels (labels_eq_ok_iff.mpr (List.forall₂_map_right_iff.mpr ?_))).symm
  exact h.shows.imp fun f line ⟨v, hv⟩ => hv.nameOf?

/-- The labels of a text that is ordered are those of its formulas in order. -/
theorem orderLabels_of_order {text : String} {g : Graph} {ordered : List Handle} (hread : readFormulas text = .ok g)
    (horder : g.order.2 = .ok ordered) : orderLabels text = .ok (ordered.map g.labelOrEmpty) := by
  have hanswer := answer_orderLabels text
  generalize orderLabels text = result at hanswer
  cases hanswer with
  | malformed hread' => cases hread.symm.trans hread'
  | ownCall hread' => cases hread.symm.trans hread'
  | circular hread' horder' =>
    obtain rfl := Except.ok.inj (hread.symm.trans hread')
    cases horder.symm.trans horder'
  | ordered hread' horder' _ _ hlabels =>
    obtain rfl := Except.ok.inj (hread.symm.trans hread')
    obtain rfl := Except.ok.inj (horder.symm.trans horder')
    rw [eq_map_of_labels hlabels]

/-- The labels that are returned are the lines unindented, in some order. -/
theorem perm_of_orderLabels {text : String} {labels : List String} (h : orderLabels text = .ok labels) :
    labels.Perm ((textLines text).map unindented) := by
  have hanswer := answer_orderLabels text
  rw [h] at hanswer
  cases hanswer with
  | ordered hread _ hperm _ hlabels =>
    rw [eq_map_of_labels hlabels, ← (renders_readFormulas hread).map_label]
    exact hperm.map _

/-- **The labels that are returned** are the lines unindented, each once, and every name that a label calls
is declared by an earlier one. -/
theorem orderLabels_spec {text : String} {labels : List String} (h : orderLabels text = .ok labels) :
    labels.Perm ((textLines text).map unindented) ∧ labels.Nodup ∧
      ∀ (k : Nat) (label : String), labels[k]? = some label → ∀ x ∈ calledNames label,
        ∃ j < k, ∃ earlier, labels[j]? = some earlier ∧ x ∈ declaredNames earlier := by
  have hanswer := answer_orderLabels text
  rw [h] at hanswer
  refine ⟨perm_of_orderLabels h, ?_⟩
  cases hanswer with
  | @ordered g ordered _ hread _ hperm htop hlabels =>
    have hrenders := renders_readFormulas hread
    obtain rfl := eq_map_of_labels hlabels
    have hformula : ∀ i ∈ ordered, i ∈ g.formulas := fun i hi => hperm.mem_iff.mp hi
    constructor
    · refine List.Nodup.map_on ?_ (hperm.nodup_iff.mpr hrenders.linked.once)
      intro i hi j hj hij
      obtain ⟨line, -, v, hv⟩ := hrenders.exists_line (hformula i hi)
      obtain ⟨line', -, w, hw⟩ := hrenders.exists_line (hformula j hj)
      refine hrenders.label_unique (hformula i hi) (hformula j hj) ?_
      rw [labelOrEmpty, labelOrEmpty, hv.nameOf?, hw.nameOf?, Option.getD_some, Option.getD_some] at hij
      rw [hv.nameOf?, hw.nameOf?, hij]
    · intro k label hk x hx
      rw [List.getElem?_map] at hk
      obtain ⟨a, hka, rfl⟩ := Option.map_eq_some_iff.mp hk
      have ha := hformula a (List.mem_of_getElem? hka)
      obtain ⟨line, hline, v, hv⟩ := hrenders.exists_line ha
      rw [labelOrEmpty, hv.nameOf?, Option.getD_some, calledNames_unindented] at hx
      obtain ⟨other, hother, hdeclared⟩ := hrenders.complete line hline x hx
      obtain ⟨b, hb, w, hw⟩ := hrenders.exists_formula hother
      have hedge := (hrenders.edge_iff ha hb hv hw hline hother).mpr ⟨hline, hother, x, hx, hdeclared⟩
      obtain ⟨j, hj, hjb⟩ := List.mem_iff_getElem.mp (htop k a hka b hedge)
      rw [List.length_take] at hj
      rw [List.getElem_take] at hjb
      refine ⟨j, by omega, unindented other, ?_, by rwa [declaredNames_unindented]⟩
      rw [List.getElem?_map, List.getElem?_eq_getElem (by omega), Option.map_some, hjb, labelOrEmpty,
        hw.nameOf?, Option.getD_some]

/-- Of the two lines `b=a` and `a=1` the second comes first. -/
theorem labels_two_lines : ∃ labels, orderLabels "b=a\na=1" = .ok labels ∧ labels.Perm ["b=a", "a=1"] ∧
    ∀ k : Nat, labels[k]? = some "b=a" → ∃ j < k, labels[j]? = some "a=1" := by
  have hlines : textLines "b=a\na=1" = ["b=a", "a=1"] := by decide +kernel
  have hnames := declares_b_a.declaredNames_eq
  have hnames' := declares_a_1.declaredNames_eq
  have hcalls : calledNames "b=a" = ["a"] := declares_b_a.calledNames_eq
  have hcalls' : calledNames "a=1" = [] := declares_a_1.calledNames_eq
  obtain ⟨g, hread⟩ := exists_readFormulas_of_pair hlines declares_b_a declares_a_1 (by decide)
    (by simp [idents]) (by simp [idents])
  have hcall : ∀ {line line' : String}, LineCalls "b=a\na=1" line line' → line = "b=a" ∧ line' = "a=1" := by
    rintro line line' ⟨hl, hl', x, hx, hx'⟩
    rw [hlines] at hl hl'
    simp only [List.mem_cons, List.not_mem_nil, or_false] at hl hl'
    rcases hl with rfl | rfl <;> rcases hl' with rfl | rfl <;> simp_all
  have hacyclic : ¬ ∃ line, Relation.TransGen (LineCalls "b=a\na=1") line line := by
    rintro ⟨line, hcircle⟩
    obtain ⟨_, hfirst, _⟩ := Relation.TransGen.head'_iff.mp hcircle
    obtain ⟨_, _, hlast⟩ := Relation.TransGen.tail'_iff.mp hcircle
    exact absurd ((hcall hfirst).1.symm.trans (hcall hlast).2) (by decide)
  obtain ⟨labels, hlabels⟩ := orderLabels_eq_ok_iff.mpr ⟨⟨g, hread⟩, hacyclic⟩
  obtain ⟨hperm, -, hbefore⟩ := orderLabels_spec hlabels
  have hindent : (textLines "b=a\na=1").map unindented = ["b=a", "a=1"] := by decide +kernel
  rw [hindent] at hperm
  refine ⟨labels, hlabels, hperm, ?_⟩
  intro k hk
  obtain ⟨j, hj, earlier, hearlier, hdeclared⟩ := hbefore k "b=a" hk "a" (by simp [hcalls])
  have hmem : earlier ∈ ["b=a", "a=1"] := hperm.mem_iff.mp (List.mem_of_getElem? hearlier)
  refine ⟨j, hj, ?_⟩
  simp only [List.mem_cons, List.not_mem_nil, or_false] at hmem
  rcases hmem with rfl | rfl
  · rw [hnames] at hdeclared
    exact absurd hdeclared (by decide)
  · exact hearlier

/-- There are labels, and each is one line with an equals sign. -/
theorem labels_of_orderLabels {text : String} {labels : List String} (h : orderLabels text = .ok labels) :
    labels ≠ [] ∧ ∀ l ∈ labels, '=' ∈ l.toList ∧ '\n' ∉ l.toList := by
  have hperm := perm_of_orderLabels h
  have hanswer := answer_orderLabels text
  rw [h] at hanswer
  cases hanswer with
  | ordered hread _ _ _ _ =>
    obtain ⟨haccepts, -⟩ := readFormulas_eq_ok_iff.mp hread
    constructor
    · intro hnil
      rw [hnil, List.nil_perm, List.map_eq_nil_iff] at hperm
      exact textLines_ne_nil text hperm
    · intro l hl
      obtain ⟨line, hline, rfl⟩ := List.mem_map.mp (hperm.mem_iff.mp hl)
      obtain ⟨names, sums, hdeclares, -⟩ := (acceptsAll_iff.mp haccepts).1 line hline
      refine ⟨hdeclares.equalSign_mem, ?_⟩
      intro hfeed
      rw [unindented, String.toList_ofList] at hfeed
      exact lineFeed_not_mem_of_mem_textLines hline ((List.dropWhile_sublist _).mem hfeed)

/-! ## What is printed -/

namespace Report

/-- The ordered labels of the text are printed, each on a line. -/
def Lists (r : Report) (text : String) : Prop :=
  ∃ labels, orderLabels text = .ok labels ∧ r.status = 0 ∧ r.stdout = String.join (labels.map (· ++ "\n"))

/-- It is printed that the text is malformed. -/
def SaysMalformed (r : Report) : Prop := r.status = 1 ∧ r.stdout = "syntax error\n"

/-- It is printed that there is a circle. -/
def SaysCyclic (r : Report) : Prop := r.status = 1 ∧ r.stdout = "cycle\n"

end Report

namespace Report

variable {r : Report} {text : String}

theorem SaysMalformed.not_saysCyclic (h : r.SaysMalformed) : ¬ r.SaysCyclic := by
  rintro ⟨-, hstdout⟩
  rw [h.2] at hstdout
  exact absurd hstdout (by decide)

theorem Lists.status_eq (h : r.Lists text) : r.status = 0 := by
  obtain ⟨_, -, hstatus, -⟩ := h
  exact hstatus

theorem status_ne_of_one (h : r.status = 1) : r.status ≠ 0 := by
  rw [h]
  decide

/-- What is printed then is the lines that were asked for. -/
theorem Lists.textLines_stdout (h : r.Lists text) :
    orderLabels text = .ok (textLines r.stdout) ∧ r.stdout ≠ "" ∧
      ∀ line ∈ textLines r.stdout, '=' ∈ line.toList := by
  obtain ⟨labels, hlabels, -, hstdout⟩ := h
  obtain ⟨hne, hall⟩ := labels_of_orderLabels hlabels
  have hlines : textLines r.stdout = labels := by
    rw [hstdout]
    exact textLines_join hne fun l hl => (hall l hl).2
  rw [hlines]
  refine ⟨hlabels, ?_, fun l hl => (hall l hl).1⟩
  intro hempty
  have hblank : textLines "" = [""] := by decide +kernel
  rw [hempty, hblank] at hlines
  have hmem := (hall "" (hlines ▸ List.mem_singleton_self "")).1
  simp at hmem

/-- Only labels are written with an equals sign. -/
theorem Lists.equalSign_mem (h : r.Lists text) : '=' ∈ r.stdout.toList := by
  obtain ⟨labels, hlabels, -, hstdout⟩ := h
  obtain ⟨hne, hall⟩ := labels_of_orderLabels hlabels
  obtain ⟨l, hl⟩ := List.exists_mem_of_ne_nil _ hne
  rw [hstdout, String.join_eq, String.toList_ofList, List.mem_flatten]
  exact ⟨(l ++ "\n").toList, List.mem_map_of_mem (List.mem_map_of_mem hl), by simp [(hall l hl).1]⟩

theorem SaysMalformed.equalSign_iff (h : r.SaysMalformed) : r.status = 0 ↔ '=' ∈ r.stdout.toList := by
  rw [h.1, h.2]
  decide

theorem SaysCyclic.equalSign_iff (h : r.SaysCyclic) : r.status = 0 ↔ '=' ∈ r.stdout.toList := by
  rw [h.1, h.2]
  decide

end Report

theorem exists_of_map_eq_ok {α β : Type} {x : Except Failure α} {f : α → β} {b : β} (h : x.map f = .ok b) :
    ∃ a, x = .ok a ∧ f a = b := by
  cases x with
  | error e => cases h
  | ok a => exact ⟨a, rfl, Except.ok.inj h⟩

/-- A run ends with a report, in one of three ways. -/
theorem run_cases (logger : String) (showCycle : Bool) (text : String) :
    ∃ r, run logger showCycle text = .ok r ∧
      ((r.Lists text ∧ (∃ g, readFormulas text = .ok g) ∧
          ¬ ∃ line, Relation.TransGen (LineCalls text) line line) ∨
        (r.SaysMalformed ∧ ∃ m, readFormulas text = .error (.malformed m)) ∨
        (r.SaysCyclic ∧ ((∃ c, readFormulas text = .error (.cyclic c)) ∨
          ∃ g c, readFormulas text = .ok g ∧ g.order.2 = .error (.cyclic c)))) := by
  have hanswer := answer_orderLabels text
  generalize hresult : orderLabels text = result at hanswer
  cases hanswer with
  | malformed hread =>
    obtain ⟨r, hr, hprint⟩ := exists_of_map_eq_ok (run_of_malformed hresult logger showCycle)
    exact ⟨r, hr, .inr (.inl ⟨Prod.mk.inj hprint, _, hread⟩)⟩
  | ownCall hread =>
    obtain ⟨r, hr, hprint⟩ := exists_of_map_eq_ok (run_of_cyclic hresult logger showCycle)
    exact ⟨r, hr, .inr (.inr ⟨Prod.mk.inj hprint, .inl ⟨_, hread⟩⟩)⟩
  | @circular g labels hread horder =>
    obtain ⟨r, hr, hprint⟩ := exists_of_map_eq_ok (run_of_cyclic hresult logger showCycle)
    exact ⟨r, hr, .inr (.inr ⟨Prod.mk.inj hprint, .inr ⟨g, _, hread, horder⟩⟩)⟩
  | @ordered g _ labels _ _ _ _ _ =>
    obtain ⟨r, hr, hprint⟩ := exists_of_map_eq_ok (run_of_labels hresult logger showCycle)
    exact ⟨r, hr, .inl ⟨⟨labels, hresult, Prod.mk.inj hprint⟩, orderLabels_eq_ok_iff.mp ⟨labels, hresult⟩⟩⟩

/-- A text whose lines may be ordered has no circle for reading or ordering to find. -/
theorem not_cyclic_of_acyclic {text : String} {g : Graph} (hread : readFormulas text = .ok g)
    (hacyclic : ¬ ∃ line, Relation.TransGen (LineCalls text) line line) :
    ¬ ((∃ c, readFormulas text = .error (.cyclic c)) ∨
      ∃ g c, readFormulas text = .ok g ∧ g.order.2 = .error (.cyclic c)) := by
  rintro (⟨c, herror⟩ | ⟨g', c, hread', horder⟩)
  · cases hread.symm.trans herror
  · exact hacyclic ((order_error_iff_calls hread').mp ⟨_, horder⟩)

/-- **What is printed.** A run always ends with a report, and it is one of three: the ordered labels, exactly
if the text is accepted and no line calls itself through others; that the text is malformed, exactly if reading
says so; or that there is a circle, exactly if reading or ordering says so. What is printed tells which. -/
theorem run_outcome (logger : String) (showCycle : Bool) (text : String) :
    ∃ r, run logger showCycle text = .ok r ∧
      (r.Lists text ↔ (∃ g, readFormulas text = .ok g) ∧
        ¬ ∃ line, Relation.TransGen (LineCalls text) line line) ∧
      (r.SaysMalformed ↔ ∃ m, readFormulas text = .error (.malformed m)) ∧
      (r.SaysCyclic ↔ (∃ c, readFormulas text = .error (.cyclic c)) ∨
        ∃ g c, readFormulas text = .ok g ∧ g.order.2 = .error (.cyclic c)) ∧
      (r.Lists text ∧ ¬ r.SaysMalformed ∧ ¬ r.SaysCyclic ∨
        ¬ r.Lists text ∧ r.SaysMalformed ∧ ¬ r.SaysCyclic ∨
        ¬ r.Lists text ∧ ¬ r.SaysMalformed ∧ r.SaysCyclic) ∧
      (r.status = 0 → orderLabels text = .ok (textLines r.stdout) ∧ r.stdout ≠ "" ∧
        ∀ line ∈ textLines r.stdout, '=' ∈ line.toList) ∧
      (r.status = 0 ↔ '=' ∈ r.stdout.toList) := by
  obtain ⟨r, hr, ⟨hlists, ⟨g, hread⟩, hacyclic⟩ | ⟨hmalformed, m, hread⟩ | ⟨hcyclic, hfound⟩⟩ :=
    run_cases logger showCycle text
  · have hstatus := hlists.status_eq
    have hmalformed : ¬ r.SaysMalformed := fun h => Report.status_ne_of_one h.1 hstatus
    have hcyclic : ¬ r.SaysCyclic := fun h => Report.status_ne_of_one h.1 hstatus
    refine ⟨r, hr, iff_of_true hlists ⟨⟨g, hread⟩, hacyclic⟩, iff_of_false hmalformed (by simp [hread]),
      iff_of_false hcyclic (not_cyclic_of_acyclic hread hacyclic), .inl ⟨hlists, hmalformed, hcyclic⟩,
      fun _ => hlists.textLines_stdout, iff_of_true hstatus hlists.equalSign_mem⟩
  · have hstatus := Report.status_ne_of_one hmalformed.1
    have hlists : ¬ r.Lists text := fun h => hstatus h.status_eq
    have hcyclic := hmalformed.not_saysCyclic
    exact ⟨r, hr, iff_of_false hlists (by simp [hread]), iff_of_true hmalformed ⟨m, hread⟩,
      iff_of_false hcyclic (by simp [hread]), .inr (.inl ⟨hlists, hmalformed, hcyclic⟩),
      fun h => absurd h hstatus, hmalformed.equalSign_iff⟩
  · have hstatus := Report.status_ne_of_one hcyclic.1
    have hlists : ¬ r.Lists text := fun h => hstatus h.status_eq
    have hmalformed : ¬ r.SaysMalformed := fun h => h.not_saysCyclic hcyclic
    refine ⟨r, hr, iff_of_false hlists ?_, iff_of_false hmalformed ?_, iff_of_true hcyclic hfound,
      .inr (.inr ⟨hlists, hmalformed, hcyclic⟩), fun h => absurd h hstatus, hcyclic.equalSign_iff⟩
    · rintro ⟨⟨g, hread⟩, hacyclic⟩
      exact not_cyclic_of_acyclic hread hacyclic hfound
    · rintro ⟨m, hread⟩
      rw [hread] at hfound
      rcases hfound with ⟨c, herror⟩ | ⟨g, c, hread', -⟩
      · cases herror
      · cases hread'

end EvalOrder
