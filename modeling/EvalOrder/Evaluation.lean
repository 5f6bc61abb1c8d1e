import EvalOrder.Graph.OrderCheck
import EvalOrder.Graph.Sort
import EvalOrder.Log.Record
import EvalOrder.Session

/-!
# Evaluation order

`evaluate` is `order_labels`: it reads a text of declarations (`parse_formulas`), sorts its lines so that each comes
after those it depends on (`order_formulas`), checks the order (`check_order`) and returns the labels in it. Beside the
answer it notes what was done as log records. `run` is `run`: it turns the answer into what is printed, the labels or
one word for what is wrong (`SYNTAX_ERROR_MESSAGE`, `CYCLE_MESSAGE`).

Results:
* `orderLabels_eq`: the answer is that of reading, sorting and checking in turn.
* `run_of_labels`, `run_of_malformed`, `run_of_cyclic`: what is printed for each answer.
-/

namespace EvalOrder

open Log

/-- An answer and the log records that led to it. -/
structure Evaluation where
  records : List Record
  outcome : Except Failure (List String)

/-- The record of a line that became a formula. -/
def Declaration.record (d : Declaration) : Record where
  level := Level.debug
  logger := "symbolic.parser"
  message := s!"Row {d.row}: {Text.quoted d.label} declares {Text.quotedList d.names}"

namespace Graph

/-- The name or label of a handle; the empty text when there is none. -/
def labelOrEmpty (g : Graph) (h : Handle) : String := (g.nameOf? h).getD ""

/-- The record of a dependency. -/
def edgeRecord (g : Graph) (e : Handle × Handle) : Record where
  level := Level.debug
  logger := "core.formula_graph"
  message := s!"'{g.labelOrEmpty e.1}' depends on '{g.labelOrEmpty e.2}'"

/-- The record of the exit ranks. -/
def rankRecord (g : Graph) (ordered : List Handle) : Record where
  level := Level.debug
  logger := "core.topological_sort"
  message :=
    let ranks := ordered.map fun h => s!"{g.rankOf h}={Text.quoted (g.labelOrEmpty h)}"
    "Exit ranks: " ++ ", ".intercalate ranks

end Graph

/-- The records of reading a text. -/
def Intake.records (intake : Intake) : List Record :=
  intake.declarations.map Declaration.record ++ intake.edges.map intake.session.graph.edgeRecord

/-- `order_labels`, with what it logs: order the lines of a text. -/
def evaluate (text : String) : Evaluation :=
  let intake := Session.read {} text
  match intake.outcome with
  | .error e => ⟨intake.records, .error e⟩
  | .ok () =>
    match intake.session.graph.order with
    | (_, .error e) => ⟨intake.records, .error e⟩
    | (g, .ok ordered) =>
      ⟨intake.records ++ [g.rankRecord ordered], do g.checkOrder ordered; g.labels ordered⟩

/-- The labels of the lines of a text in evaluation order. -/
def orderLabels (text : String) : Except Failure (List String) := (evaluate text).outcome

theorem orderLabels_eq (text : String) :
    orderLabels text = (do
      let g ← readFormulas text
      let ordered ← g.order.2
      g.order.1.checkOrder ordered
      g.order.1.labels ordered) := by
  unfold orderLabels evaluate readFormulas
  generalize Session.read {} text = intake
  obtain ⟨session, declarations, edges, outcome⟩ := intake
  cases outcome with
  | error e => rfl
  | ok u =>
    cases h : session.graph.order with
    | mk g outcome => cases outcome <;> simp [h, Except.map, bind, Except.bind]

/-! ## What is printed -/

/-- The answer as printed: exit status, standard output and log records. -/
structure Report where
  status : Nat
  stdout : String
  records : List Record
  deriving DecidableEq, Repr

/-- The record of a circle, if it is asked for. -/
def Cycle.records (logger : String) (showCycle : Bool) (c : Cycle) : List Record :=
  if showCycle && !c.chain.isEmpty then
    [⟨Level.warning, logger, "Cyclic dependency: " ++ " -> ".intercalate c.chain⟩]
  else []

/-- Print the answer for a text. A failure that is neither in the text nor a circle is passed on. -/
def run (logger : String) (showCycle : Bool) (text : String) : Except Failure Report :=
  let evaluation := evaluate text
  let records := evaluation.records
  match evaluation.outcome with
  | .ok labels =>
    .ok ⟨0, String.join (labels.map (· ++ "\n")),
      records ++ [⟨Level.info, logger, s!"Ordered {labels.length} formulas."⟩]⟩
  | .error (.malformed m) =>
    .ok ⟨1, "syntax error\n", records ++ [⟨Level.debug, logger, s!"Syntax error: {m.message}"⟩]⟩
  | .error (.cyclic c) =>
    .ok ⟨1, "cycle\n", records ++ c.records logger showCycle ++
      [⟨Level.debug, logger, s!"Semantic error: {c.message}"⟩]⟩
  | .error e => .error e

theorem run_of_labels {text : String} {labels : List String} (h : orderLabels text = .ok labels)
    (logger : String) (showCycle : Bool) :
    (run logger showCycle text).map (fun r => (r.status, r.stdout)) =
      .ok (0, String.join (labels.map (· ++ "\n"))) := by
  unfold orderLabels at h
  simp [run, h, Except.map]

theorem run_of_malformed {text : String} {m : Malformed} (h : orderLabels text = .error (.malformed m))
    (logger : String) (showCycle : Bool) :
    (run logger showCycle text).map (fun r => (r.status, r.stdout)) = .ok (1, "syntax error\n") := by
  unfold orderLabels at h
  simp [run, h, Except.map]

theorem run_of_cyclic {text : String} {c : Cycle} (h : orderLabels text = .error (.cyclic c))
    (logger : String) (showCycle : Bool) :
    (run logger showCycle text).map (fun r => (r.status, r.stdout)) = .ok (1, "cycle\n") := by
  unfold orderLabels at h
  simp [run, h, Except.map]

end EvalOrder
