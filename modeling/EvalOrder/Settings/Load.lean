import EvalOrder.Files.Portions
import EvalOrder.Files.Tree
import EvalOrder.Settings.Basic
import EvalOrder.Yaml.Document

/-!
# Loading settings

Settings are loaded from a file that holds one mapping or nothing; without a file, and from an empty one, they are
what an empty mapping gives (`Loader.load`, which is `load_config`). Most of what can be wrong with the file is
reported; a path that cannot be looked up, a file that is no text, a scalar without a value and keys without an order
are not, and end the program.

How the document in a file is read, and how it is checked, belongs to a `Loader`. All that a run relies on is that
settings which pass the check have a level. `Settings.loader` is the loader of the program: it reads YAML, and checks as
`Settings.validate` does. What the YAML library says about a text that is no document is left out.

Results:
* `load_of_read_error`: a file that cannot be read, whatever the loader.
* `level?_of_load`: settings that are loaded have a level.
* `loader_load_none`: without a file they are those that nothing is said about.
-/

namespace EvalOrder

open Files
open Text (Points)

/-- Why settings cannot be loaded from a file. -/
inductive LoadError where
  | unreadable (path : String) (cause : PathError)
  /-- The file is no text. -/
  | undecodable
  /-- The text is no document. -/
  | noDocument (path : String)
  | notMapping (path : String)
  | invalid (cause : SettingsError)
  /-- A scalar of the document has no value. -/
  | fault (cause : Yaml.Fault)

namespace LoadError

/-- What is wrong with the document of a file. -/
def ofFailure (path : String) : Yaml.Failure → LoadError
  | .malformed => noDocument path
  | .undecodable => undecodable
  | .fault f => fault f

/-- What is said about a text that is no document, after its path. -/
def noDocumentDetail : String := ": it does not hold one document\n"

def message : LoadError → String
  | unreadable path cause =>
    if cause.isReported then s!"Cannot read configuration '{path}': {cause.message}" else cause.message
  | undecodable => "The configuration is not valid UTF-8."
  | noDocument path => s!"Invalid YAML in '{path}'" ++ noDocumentDetail
  | notMapping path => s!"Configuration '{path}' must be a mapping."
  | invalid cause => cause.message
  | fault cause => cause.message

/-- The program reports the error; otherwise the error ends it. -/
def isReported : LoadError → Bool
  | unreadable _ cause => cause.isReported
  | undecodable => false
  | noDocument _ => true
  | notMapping _ => true
  | invalid cause => cause.isReported
  | fault _ => false

end LoadError

/-- What settings are loaded with. -/
structure Loader where
  /-- The document that bytes hold. -/
  document : Bytes → Except Yaml.Failure Value
  /-- The settings that a value gives. -/
  check : Value → Except SettingsError Settings
  /-- They have a level, which is not above ERROR. -/
  level : ∀ {v s}, check v = .ok s → ∃ level ≤ Log.Level.error, s.level? = some level

namespace Loader

variable (l : Loader)

/-- The settings that a mapping gives. -/
def checkMapping (m : Mapping) : Except LoadError Settings := (l.check (.map m)).mapError .invalid

/-- Load settings from the file at a path. -/
def loadFile (files : Tree) (path : String) : Except LoadError Settings := do
  let bytes ← (files.read (Points.ofString path)).mapError (.unreadable path)
  match ← (l.document bytes).mapError (.ofFailure path) with
  | .null => l.checkMapping []
  | .map m => l.checkMapping m
  | _ => .error (.notMapping path)

/-- `load_config`: load settings from a file, if there is one. -/
def load (files : Tree) : Option String → Except LoadError Settings
  | none => l.checkMapping []
  | some path => l.loadFile files path

variable {l}

theorem load_of_read_error {files : Tree} {path : String} {e : PathError}
    (h : files.read (Points.ofString path) = .error e) : l.load files (some path) = .error (.unreadable path e) := by
  rw [load, loadFile, h]
  rfl

theorem level?_of_checkMapping {m : Mapping} {s : Settings} (h : l.checkMapping m = .ok s) :
    ∃ level ≤ Log.Level.error, s.level? = some level := by
  unfold checkMapping at h
  cases hcheck : l.check (.map m) with
  | error e =>
    rw [hcheck] at h
    cases h
  | ok s' =>
    rw [hcheck] at h
    cases h
    exact l.level hcheck

theorem level?_of_load {files : Tree} {path : Option String} {s : Settings} (h : l.load files path = .ok s) :
    ∃ level ≤ Log.Level.error, s.level? = some level := by
  cases path with
  | none => exact level?_of_checkMapping h
  | some path =>
    simp only [load, loadFile, bind, Except.bind] at h
    split at h
    · cases h
    · split at h
      · cases h
      · split at h
        · exact level?_of_checkMapping h
        · exact level?_of_checkMapping h
        · cases h

end Loader

namespace Settings

/-- How deep a document is looked into: the fields of its mapping are scalars, so collections among them need not be. -/
def fieldDepth : Nat := 1

/-- The document that a file holds. -/
def documentOf (bytes : Bytes) : Except Yaml.Failure Value :=
  Yaml.read? fieldDepth (Yaml.Supply.ofPortions (portions Yaml.Supply.portionSize bytes))

/-- The loader of the program. -/
def loader : Loader where
  document := documentOf
  check := validate Complaints.collected
  level := level?_of_validate Complaints.perm_of_collected

theorem loader_load_none (files : Tree) : loader.load files none = .ok {} := by rfl

end Settings

end EvalOrder
