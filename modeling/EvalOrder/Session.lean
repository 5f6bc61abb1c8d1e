import EvalOrder.Graph.Link
import EvalOrder.Source.Declaration
import EvalOrder.Source.Line

/-!
# Sessions

Model of `Parser`. A session reads texts of declarations into one graph (`read` is `parse`, and `readFormulas` is
`parse_formulas`, which reads one text into an empty graph). It remembers the names that earlier lines declared, which
no later line may declare again, and the names that they call, all of which have to be declared by the end of a text. A
line that fails ends the reading of its text; what it did before that stays done.

A line is entered in four steps (`enter` is `_parse_declaration_line`): its names are registered, as far as they were
read; each declared name is related to the names that its expression calls; the line becomes a formula; and nothing may
follow it.

Results:
* `register_keeps_formulas`, `addRelated_keeps_formulas`: only the third step makes a formula.
-/

namespace EvalOrder

/-- A line that became a formula. -/
structure Declaration where
  row : Nat
  label : String
  names : List String
  deriving DecidableEq, Repr

/-- The graph of the lines read so far, the names they declare, and the names they call in the order of the
first call. -/
structure Session where
  graph : Graph := {}
  defined : List String := []
  called : List String := []
  deriving DecidableEq, Repr

/-- What entering a line did. -/
structure Entry where
  session : Session
  declaration : Option Declaration
  outcome : Except Failure Unit

/-- What reading a text did: the lines that became formulas, the dependencies that were added, and how it
ended. -/
structure Intake where
  session : Session
  declarations : List Declaration
  edges : List (Handle × Handle)
  outcome : Except Failure Unit

namespace Graph

/-- Relate declared names to names that their expressions call. A call of a name from the same line is a circle
and ends this, but is added too. -/
def relateCalls (g : Graph) (declared : List Handle) :
    List (Handle × Handle) → Graph × Except Failure Unit
  | [] => (g, .ok ())
  | (name, call) :: more =>
    match g.addRelated name call with
    | .error e => (g, .error e)
    | .ok g =>
      if call ∈ declared then
        match g.label name, g.label call with
        | .ok n, .ok c => (g, .error (.cyclic (.onLine n c)))
        | .error e, _ => (g, .error e)
        | _, .error e => (g, .error e)
      else g.relateCalls declared more

end Graph

namespace Session

/-- Register the names of a line and note them as declared and called. -/
def note (s : Session) (r : Reading) : List Handle × List (List Handle) × Session :=
  let (declared, g) := s.graph.registerAll r.names
  let (mentioned, g) := g.registerGroups r.expressions
  (declared, mentioned.map distinct,
    { graph := g
      defined := s.defined ++ r.names
      called := addAll s.called r.expressions.flatten })

/-- The text of a line from its first token up to `finish`, without line feeds. -/
def labelOf (first finish : Token) : String :=
  String.ofList ((first.start.take (finish.start.index - first.start.index)).toList.filter (· ≠ '\n'))

/-- `_parse_declaration_line`: enter the line at a cursor. -/
def enter (s : Session) (line : Cursor) : Entry :=
  let lexed := Lexed.ofCursor line
  match lexed.head with
  | .error e => ⟨s, none, .error e⟩
  | .ok first =>
    let reading := Reading.ofLexed s.defined lexed
    let (declared, calls, s) := s.note reading
    match reading.outcome with
    | .error e => ⟨s, none, .error e⟩
    | .ok finish =>
      if declared.length ≠ calls.length then
        ⟨s, none, .error (finish.start.malformed .badDeclaration)⟩
      else
        let pairs := (declared.zip calls).flatMap fun (name, cs) => cs.map fun c => (name, c)
        match s.graph.relateCalls declared pairs with
        | (g, .error e) => ⟨{ s with graph := g }, none, .error e⟩
        | (g, .ok ()) =>
          let label := labelOf first finish
          let (_, g) := g.addFormula label declared calls
          ⟨{ s with graph := g }, some ⟨first.start.row, label, reading.names⟩,
            if finish.tag = .endOfText then .ok () else .error (finish.expected .endOfText)⟩

/-- Enter lines until one fails. -/
def enterAll (s : Session) : List Cursor → Session × List Declaration × Except Failure Unit
  | [] => (s, [], .ok ())
  | line :: more =>
    let entry := s.enter line
    match entry.outcome with
    | .error e => (entry.session, entry.declaration.toList, .error e)
    | .ok () =>
      let (s, declarations, outcome) := entry.session.enterAll more
      (s, entry.declaration.toList ++ declarations, outcome)

/-- The called names that no line declares, in the order of the first call. -/
def undefined (s : Session) : List String := s.called.filter (· ∉ s.defined)

/-- The token at which reading stands when all lines are entered: the last one of the last line. -/
def lastToken (lines : List Cursor) : Except Failure Token :=
  match lines.getLast?.bind fun line => (Lexed.ofCursor line).end? with
  | some t => .ok t
  | none => .error (.fault .noToken)

/-- `Parser.parse`: enter the lines of a text, see that every called name is declared, and link the formulas. -/
def read (s : Session) (text : String) : Intake :=
  let cs := terminated text.toList
  let (s, declarations, outcome) := s.enterAll (lineCursors cs)
  match outcome with
  | .error e => ⟨s, declarations, [], .error e⟩
  | .ok () =>
    if s.undefined ≠ [] then
      let outcome := do
        let last ← lastToken (lineCursors cs)
        .error (last.start.malformed (.undefined s.undefined))
      ⟨s, declarations, [], outcome⟩
    else
      ⟨{ s with graph := s.graph.link }, declarations, s.graph.linkEdges, .ok ()⟩

end Session

/-- `parse_formulas`: the graph of a text by itself. -/
def readFormulas (text : String) : Except Failure Graph :=
  let intake := Session.read {} text
  intake.outcome.map fun _ => intake.session.graph

/-! ## Which steps make a formula -/

theorem register_keeps_formulas (g : Graph) (name : String) :
    (g.register name).2.formulas = g.formulas := by
  unfold Graph.register
  cases g.find? name <;> rfl

theorem addRelated_keeps_formulas {g g' : Graph} {source target : Handle}
    (h : g.addRelated source target = .ok g') : g'.formulas = g.formulas := by
  unfold Graph.addRelated Graph.modify at h
  cases hg : g.get source with
  | error e => rw [hg] at h; cases h
  | ok v => rw [hg] at h; cases h; rfl

end EvalOrder
