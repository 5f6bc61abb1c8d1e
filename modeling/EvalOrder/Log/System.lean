import EvalOrder.Files.Tree
import EvalOrder.Log.Logger

/-!
# Logging

Records that a logger takes are written to a console and to an optional log file. `setup` is `setup_logging`: it sets
the level of the root, opens a new console in place of the old one and a log file in place of the old one; the log file
is appended to. Handlers that others have installed are left out.

Results:
* `log_of_plain`: as long as no logger has a level of its own, a record is written when its level is at least that of
  the root.
-/

namespace EvalOrder.Log

open Files
open Text (Points)

/-- The loggers, the texts of the consoles in the order they were opened, the log file that is open, and the
files. -/
structure System where
  loggers : Loggers := {}
  consoles : List String := []
  logFile : Option Names := none
  files : Tree := {}
  deriving DecidableEq

namespace System

/-- The number of places that records are written to. -/
def handlers (s : System) : Nat :=
  if s.consoles.isEmpty then 0 else if s.logFile.isSome then 2 else 1

/-- `setup_logging`: begin to log at `level`, to a new console and to the log file at a path, unless that is empty. When
the file cannot be opened, the console is there all the same. -/
def setup (s : System) (level : Level) (logFile : Option Points) : System × Except PathError Unit :=
  let s := { s with loggers := s.loggers.setLevel rootName level, consoles := s.consoles ++ [""], logFile := none }
  match logFile with
  | none => (s, .ok ())
  | some path =>
    if path.isEmpty then (s, .ok ())
    else match s.files.openAppend (s.files.plainPath path) with
      | .error e => (s, .error e)
      | .ok (names, files) => ({ s with logFile := some names, files }, .ok ())

/-- Append a text to the last console. -/
def appendLast (line : String) : List String → List String
  | [] => []
  | [console] => [console ++ line]
  | console :: more => console :: appendLast line more

/-- Write a line to the console and the log file. -/
def write (s : System) (line : String) : System :=
  { s with
    consoles := appendLast line s.consoles
    files := match s.logFile with
      | some names => s.files.append names line
      | none => s.files }

/-- Log a record at `time`. -/
def log (s : System) (time : String) (r : Record) : System :=
  let judged := s.loggers.takes r.logger r.level
  let s := { s with loggers := judged.2 }
  if judged.1 then
    let name := if Loggers.isRoot r.logger then rootName else r.logger
    s.write ({ r with logger := name }.line time)
  else s

/-- Log records in order. -/
def logAll (s : System) (time : String) (rs : List Record) : System :=
  rs.foldl (fun s r => s.log time r) s

theorem loggers_log (s : System) (time : String) (r : Record) :
    (s.log time r).loggers = (s.loggers.takes r.logger r.level).2 := by
  simp only [log]
  split <;> rfl

theorem log_of_plain {s : System} (hs : s.loggers.Plain) (time : String) {r : Record}
    (hr : Loggers.isRoot r.logger = false) :
    s.log time r =
      let s' := { s with loggers := (s.loggers.takes r.logger r.level).2 }
      if 0 < r.level ∧ s.loggers.root ≤ r.level then s'.write (r.line time) else s' := by
  simp [log, Loggers.takes_fst_of_plain hs, hr]

end System

end EvalOrder.Log
