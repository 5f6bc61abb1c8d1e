import EvalOrder.Arguments
import EvalOrder.Evaluation
import EvalOrder.Log.System
import EvalOrder.Settings.Load

/-!
# The command

A run of the program as a function: from its arguments, its standard input and the files of its directory to what it
prints, how it ends, and the files it leaves.

`runArguments` and `evaluateInput` are `main` after `parse_args`. It loads the settings, which options override
(`override`), begins to log (`setup_logging`), reads its input (`readInput` is `read_text`) and prints the labels in
order. Log records go to standard error and to the log file as they arise, so an input that is the log file holds what
was logged before it is read. `Start` tells whether `main` was called or the file was run as a script.

How settings are loaded is a parameter, which the outer layer gives (`Settings.loader`): what is said of runs here and
later holds of every loader.

What was raised and not caught is an `Ending` of its own. All records of a run bear one time, which is an argument. Left
out are streams that cannot be written to, and the limit on nesting itself: it is checked as `setrecursionlimit` does,
but no run is stopped by it.

Results:
* `level?_override`: the level that a run logs from is defined.
-/

namespace EvalOrder

open Files Log
open Text (Points)

/-- How the program is started: called with the texts of its streams, or run by itself, which reads standard input
as a file is read. -/
inductive Start where
  | called
  | alone
  deriving DecidableEq, Repr

namespace Start

/-- The logger of the command. -/
def logger : Start → String
  | called => "formula_order"
  | alone => "__main__"

/-- Standard input as the program sees it. -/
def stdin : Start → String → String
  | called, s => s
  | alone, s => unified s

end Start

/-- How a run ends. -/
inductive Ending where
  /-- The run is over, with a status. -/
  | status (n : Nat)
  /-- The arguments ended the run, with a status. -/
  | exit (n : Nat)
  /-- A file is no text. -/
  | undecodable
  /-- A path cannot be opened, and this is not reported. -/
  | unopenable (e : PathError)
  /-- The settings cannot be loaded, and this is not reported. -/
  | unloadable (e : LoadError)
  /-- The settings are asked for without the path of a file. -/
  | noPath
  /-- The settings name no level. -/
  | noLevel (name : Points)
  /-- The limit on nesting does not fit into a machine word. -/
  | limitTooLarge
  /-- The declarations were not evaluated. -/
  | failed (e : Failure)

/-- What a run leaves. -/
structure Outcome where
  ending : Ending
  stdout : String := ""
  stderr : String := ""
  files : Tree

namespace Command

/-- `read_text`: read the input, which is standard input or a file. -/
def readInput (files : Tree) (stdin : String) : Option String → Except (Option PathError) String
  | none => .ok stdin
  | some path =>
    if path = "-" then .ok stdin
    else match files.read (Points.ofString path) with
      | .error e => .error (some e)
      | .ok bytes => match decode? bytes with
        | some text => .ok (unified text)
        | none => .error none

/-- Options override settings. -/
def override (a : Arguments) (s : Settings) : Settings where
  levelName := if a.verbose then Points.ofString "DEBUG" else s.levelName
  logFile := match a.logFile with
    | some (some path) => if path = "" then s.logFile else some (Points.ofString path)
    | _ => s.logFile
  showCycle := s.showCycle || a.showCycle
  nestingLimit := s.nestingLimit

/-- The greatest limit on nesting that can be set. -/
def greatestLimit : Int := 0x7FFFFFFF

/-- What is said about a limit that is greater. -/
def limitMessage : String := "Python int too large to convert to C int"

/-- What is said when settings are asked for without a path. -/
def noPathMessage : String := "expected str, bytes or os.PathLike object, not list"

/-- What is said about the name of no level. -/
def noLevelMessage (name : Points) : String := s!"module 'logging' has no attribute {Points.quoted name}"

/-- What a run leaves when it ends here. -/
def finish (log : System) (ending : Ending) (stdout : String) : Outcome where
  ending
  stdout
  stderr := String.join log.consoles
  files := log.files

/-- Evaluate the input under settings, with the log set up. -/
def evaluateInput (start : Start) (time stdin : String) (a : Arguments) (s : Settings) (log : System) :
    Outcome :=
  let log := match s.summary? with
    | some summary => log.log time ⟨Level.debug, start.logger, s!"Configuration: {summary}"⟩
    | none => log
  if greatestLimit < s.nestingLimit.getD 0 then finish log .limitTooLarge ""
  else match readInput log.files (start.stdin stdin) a.input with
    | .error none => finish log .undecodable ""
    | .error (some e) =>
      if e.isReported then
        let path := a.input.getD ""
        let record := ⟨Level.error, start.logger, s!"Cannot read input '{path}': {e.message}"⟩
        finish (log.log time record) (.status 2) ""
      else finish log (.unopenable e) ""
    | .ok text =>
      match run start.logger s.showCycle text with
      | .error e => finish log (.failed e) ""
      | .ok report => finish (log.logAll time report.records) (.status report.status) report.stdout

/-- `main` after the arguments are parsed: run the command that they ask for. -/
def runArguments (loader : Loader) (start : Start) (time stdin : String) (files : Tree) (a : Arguments) : Outcome :=
  let log := ({ files } : System).setup Level.warning none |>.1
  if a.config = some none then finish log .noPath ""
  else match loader.load log.files a.config.join with
    | .error .undecodable => finish log .undecodable ""
    | .error e =>
      if e.isReported then finish (log.log time ⟨Level.error, start.logger, e.message⟩) (.status 2) ""
      else finish log (.unloadable e) ""
    | .ok loaded =>
      let s := override a loaded
      match s.level? with
      | none => finish log (.noLevel s.levelName) ""
      | some level =>
        -- what was printed so far stays before what the new console gets
        match log.setup level s.logFile with
        | (log, .error e) => finish log (.unopenable e) ""
        | (log, .ok ()) => evaluateInput start time stdin a s log

/-- Run the program. -/
def execute (loader : Loader) (start : Start) (time : String) (arguments : List String) (stdin : String)
    (files : Tree) : Outcome :=
  match Arguments.parse arguments with
  | .error e => { ending := .exit 2, stderr := Arguments.complain e, files }
  | .ok .help => { ending := .exit 0, stdout := Arguments.helpText, files }
  | .ok (.run a) => runArguments loader start time stdin files a

/-- Settings that are loaded have a level, and options override it by one. -/
theorem level?_override {loader : Loader} {files : Tree} {path : Option String} {loaded : Settings}
    (h : loader.load files path = .ok loaded) (a : Arguments) :
    ∃ level ≤ Level.error, (override a loaded).level? = some level := by
  obtain ⟨level, hle, hlevel⟩ := Loader.level?_of_load h
  unfold Settings.level? override
  split
  · exact ⟨Level.debug, by decide, by rw [Points.string?_ofString]; rfl⟩
  · exact ⟨level, hle, hlevel⟩

end Command

end EvalOrder
