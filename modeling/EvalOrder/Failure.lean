import EvalOrder.Source.Place
import EvalOrder.Source.Tag
import EvalOrder.Text.Quoted

/-!
# What can go wrong

The causes for which reading, sorting or checking declarations stops, each with the one message it is reported by.

* `Malformed`, which is `FormulaSyntaxError`: a text is no sequence of declarations, at a place.
* `Cycle`, which is `SemanticError`: declarations depend on each other in a circle.
* `Misorder`, which is `FormulaOrderError`: an order of the declarations breaks a dependency.
* `Fault`: a value that was asked for is not there (`IndexError`, `KeyError`, `ValueError`, `AttributeError`). Reading,
  sorting and checking a text never ends so; the operations on graphs and cursors do when they are given a handle or a
  bound from elsewhere.

The fourth class of the source, `ConfigError`, is `LoadError` in `Settings.Load`.
-/

namespace EvalOrder

/-- Why a text is no sequence of declarations. -/
inductive SyntaxCause where
  | unknownCharacter
  | lettersAfterDigits
  | expected (want got : Tag)
  | unknownToken
  | alreadyDefined
  | badDeclaration
  | undefined (names : List String)
  deriving DecidableEq, Repr

/-- The wording of a cause. -/
def SyntaxCause.detail : SyntaxCause → String
  | unknownCharacter => "unknown character"
  | lettersAfterDigits => "letters after series of digits"
  | expected want got => s!"Expected {want.describe}. Got {got.describe}"
  | unknownToken => "UNKNOWN TOKEN"
  | alreadyDefined => "Variable was already defined"
  | badDeclaration => "Bad declaration"
  | undefined names => "Some of the formulas remained undefined: " ++ ", ".intercalate names

/-- A text that is no sequence of declarations: where it stops being one, and why. -/
structure Malformed where
  place : Place
  cause : SyntaxCause
  deriving DecidableEq, Repr

def Malformed.message (m : Malformed) : String :=
  m.place.report m.cause.detail

/-- A circle of dependencies. -/
inductive Cycle where
  /-- A line declares a name and calls a name that it declares. -/
  | onLine (declared called : String)
  /-- The labels of lines, each of which depends on the next; the last is the first again. -/
  | acrossLines (labels : List String)
  deriving DecidableEq, Repr

def Cycle.message : Cycle → String
  | onLine _ _ => "Cycle declaration"
  | acrossLines _ => "Cycle detected"

/-- The members of the circle. -/
def Cycle.chain : Cycle → List String
  | onLine declared called => [declared, called]
  | acrossLines labels => labels

/-- Why a list of declarations is no order of a graph. -/
inductive Misorder where
  | differentVertices (listed expected : Nat)
  | unfinished (labels : List String)
  | beforeDependency (dependent dependency : String)
  deriving DecidableEq, Repr

def Misorder.message : Misorder → String
  | differentVertices listed expected => s!"Order lists {listed} formulas, graph has {expected}."
  | unfinished labels => "Traversal left unfinished formulas: " ++ "; ".intercalate labels
  | beforeDependency dependent dependency =>
    s!"Formula '{dependent}' is ordered before its dependency '{dependency}'."

/-- A value that is not there. -/
inductive Fault where
  /-- A handle is none of the graph's. -/
  | handle
  /-- A character is read beyond the end of the text. -/
  | pastText
  /-- The last token of a text without lines is asked for. -/
  | noToken
  /-- A search met a grey vertex that it had not entered. -/
  | notOnStack (handle : Nat)
  /-- A vertex has no place in an order. -/
  | unplaced (handle : Nat)
  /-- No colour has this name. -/
  | unknownColor (name : String)
  deriving DecidableEq, Repr

def Fault.message : Fault → String
  | handle => "list index out of range"
  | pastText => "string index out of range"
  | noToken => "'NoneType' object has no attribute 'start'"
  | notOnStack h => s!"{h} is not in list"
  | unplaced h => toString h
  | unknownColor name => s!"{Text.quoted name} is not a valid Color"

/-- The causes together. -/
inductive Failure where
  | malformed (m : Malformed)
  | cyclic (c : Cycle)
  | misordered (m : Misorder)
  | fault (f : Fault)
  deriving DecidableEq, Repr

def Failure.message : Failure → String
  | malformed m => m.message
  | cyclic c => c.message
  | misordered m => m.message
  | fault f => f.message

end EvalOrder
