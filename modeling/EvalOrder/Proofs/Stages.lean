import EvalOrder.Command
import EvalOrder.Proofs.Evaluation

/-!
# The stages of a run

A run of the program goes through stages: it begins to log, loads its settings, begins to log as they ask, reads its
input and evaluates it. It may end at each of them. Some ends are reported, with an ERROR record and status 2; others
are not, and then there is no status (`Escape`). What comes of a run whose arguments are accepted is one of four things
(`Course`).

How settings are loaded is a `Loader` of the run, of which only the answer is looked at: all that is said here holds of
every loader.

Results:
* `Reports.join_log`: an error is written, whatever the level, behind what was written before.
* `logged_eq_error_iff`, `readInput_eq_error_iff`: why the log cannot be set up, or the input not read.
* `outcome_of_load_error`, `outcome_of_settles`, `outcome_of_logged`, `outcome_of_input`: the run from each stage on.
* `outcome_of_escape`: what ends a run without a status does so.
* **`course_outcome`**: a run takes one of the courses.
* `stderr_finish_log`: what is on standard error when an error is reported.
-/

namespace EvalOrder

open Files Log
open Text (Points)

/-! ## Logs in which errors are written -/

namespace Log

/-- A log in which errors are written: there is a console, no logger has a level of its own, and that of the root is
not above ERROR. -/
structure System.Reports (log : System) : Prop where
  plain : log.loggers.Plain
  root : log.loggers.root ≤ Level.error
  console : log.consoles ≠ []

namespace System

theorem join_appendLast (line : String) :
    ∀ {consoles : List String}, consoles ≠ [] →
      String.join (appendLast line consoles) = String.join consoles ++ line
  | [], h => absurd rfl h
  | [console], _ => by simp [appendLast, String.join_cons]
  | console :: next :: more, _ => by
    have hmore := join_appendLast line (List.cons_ne_nil next more)
    have hcons : appendLast line (console :: next :: more) = console :: appendLast line (next :: more) := rfl
    have hjoin : String.join (console :: next :: more) = console ++ String.join (next :: more) := String.join_cons
    rw [hcons, String.join_cons, hmore, hjoin, String.append_assoc]

theorem appendLast_ne_nil (line : String) {consoles : List String} (h : consoles ≠ []) :
    appendLast line consoles ≠ [] := by
  match consoles, h with
  | [console], _ => exact List.cons_ne_nil _ _
  | console :: next :: more, _ => exact List.cons_ne_nil _ _

namespace Reports

variable {s : System}

/-- A log that is set up for a level not above ERROR, even if its file cannot be opened. -/
theorem setup (hs : s.loggers.Plain) {level : Level} (hlevel : level ≤ Level.error) (logFile : Option Points) :
    (s.setup level logFile).1.Reports := by
  have hkeeps : (s.setup level logFile).1.loggers = s.loggers.setLevel rootName level ∧
      (s.setup level logFile).1.consoles = s.consoles ++ [""] := by
    cases logFile with
    | none => exact ⟨rfl, rfl⟩
    | some path =>
      simp only [System.setup]
      split
      · exact ⟨rfl, rfl⟩
      · split <;> exact ⟨rfl, rfl⟩
  refine ⟨?_, ?_, ?_⟩
  · rw [hkeeps.1]
    exact hs.setLevel rfl level
  · rw [hkeeps.1]
    exact hlevel
  · rw [hkeeps.2]
    exact List.append_ne_nil_of_right_ne_nil _ (List.cons_ne_nil _ _)

theorem log (h : s.Reports) (time : String) (r : Record) : (s.log time r).Reports := by
  refine ⟨?_, ?_, ?_⟩
  · rw [loggers_log]
    exact h.plain.takes _ _
  · rw [loggers_log, Loggers.root_takes]
    exact h.root
  · simp only [System.log]
    split
    · exact appendLast_ne_nil _ h.console
    · exact h.console

/-- An error is written behind what was written before. -/
theorem join_log (h : s.Reports) (time : String) {r : Record} (hlevel : r.level = Level.error)
    (hname : Loggers.isRoot r.logger = false) :
    String.join (s.log time r).consoles = String.join s.consoles ++ r.line time := by
  have htaken : 0 < r.level ∧ s.loggers.root ≤ r.level := by
    rw [hlevel]
    exact ⟨by decide, h.root⟩
  rw [log_of_plain h.plain time hname]
  simp only [if_pos htaken]
  exact join_appendLast _ h.console

end Reports

end System

end Log

/-! ## The stages -/

/-- All that a run depends on. -/
structure Invocation where
  loader : Loader := Settings.loader
  start : Start := .called
  time : String
  arguments : List String
  stdin : String := ""
  files : Tree

namespace Invocation

/-- What the run leaves. -/
def outcome (i : Invocation) : Outcome := Command.execute i.loader i.start i.time i.arguments i.stdin i.files

/-- The record of an error that the command reports. -/
def errorRecord (i : Invocation) (message : String) : Record := ⟨Level.error, i.start.logger, message⟩

/-- The log before settings are loaded. -/
def opening (i : Invocation) : System := (({ files := i.files } : System).setup Level.warning none).1

/-- The log that settings ask for, which is there except for its file when that cannot be opened. -/
def logged (i : Invocation) (s : Settings) (level : Level) : System × Except PathError Unit :=
  i.opening.setup level s.logFile

/-- The log when the settings have been noted in it. -/
def announced (i : Invocation) (s : Settings) (level : Level) : System :=
  match s.summary? with
  | some summary => (i.logged s level).1.log i.time ⟨Level.debug, i.start.logger, s!"Configuration: {summary}"⟩
  | none => (i.logged s level).1

/-- What reading the input comes to. -/
def input (i : Invocation) (a : Arguments) (s : Settings) (level : Level) : Except (Option PathError) String :=
  Command.readInput (i.announced s level).files (i.start.stdin i.stdin) a.input

/-- The settings are loaded, options override them, and they name a level. -/
structure Settles (i : Invocation) (a : Arguments) (s : Settings) (level : Level) : Prop where
  path : a.config ≠ some none
  loaded : ∃ loaded, i.loader.load i.files a.config.join = .ok loaded ∧ s = Command.override a loaded
  level : s.level? = some level

/-- The run comes as far as to read its input. -/
structure Prepared (i : Invocation) (a : Arguments) (s : Settings) (level : Level) : Prop where
  settles : i.Settles a s level
  logs : (i.logged s level).2 = .ok ()
  limit : s.nestingLimit.getD 0 ≤ Command.greatestLimit

/-- How a run ends that cannot load its settings and does not report it. -/
def endingOf : LoadError → Ending
  | .undecodable => .undecodable
  | e => .unloadable e

/-- What ends a run without a status, and the log at that point: settings are asked for without a path; they cannot be
loaded, which is not reported; the log file cannot be opened; the limit on nesting is too large; the input is no text;
or its path cannot be looked up at all. -/
inductive Escape (i : Invocation) (a : Arguments) : Ending → System → Prop
  | noPath : a.config = some none → Escape i a .noPath i.opening
  | settings {e : LoadError} : a.config ≠ some none → i.loader.load i.files a.config.join = .error e →
      e.isReported = false → Escape i a (endingOf e) i.opening
  | logFile {s : Settings} {level : Level} {path : Points} {e : PathError} : i.Settles a s level →
      s.logFile = some path → path ≠ [] → i.files.openAppend (i.files.plainPath path) = .error e →
      Escape i a (.unopenable e) (i.logged s level).1
  | limit {s : Settings} {level : Level} : i.Settles a s level → (i.logged s level).2 = .ok () →
      Command.greatestLimit < s.nestingLimit.getD 0 → Escape i a .limitTooLarge (i.announced s level)
  | undecodable {s : Settings} {level : Level} {path : String} {bytes : Bytes} : i.Prepared a s level →
      a.input = some path → path ≠ "-" → (i.announced s level).files.read (Points.ofString path) = .ok bytes →
      decode? bytes = none → Escape i a .undecodable (i.announced s level)
  | unopenable {s : Settings} {level : Level} {path : String} {e : PathError} : i.Prepared a s level →
      a.input = some path → path ≠ "-" → (i.announced s level).files.read (Points.ofString path) = .error e →
      e.isReported = false → Escape i a (.unopenable e) (i.announced s level)

/-- What comes of a run: it ends without a status; it reports that the settings cannot be loaded, or that the input
cannot be read; or it evaluates its input. -/
inductive Course (i : Invocation) (a : Arguments) : Outcome → Prop
  | escape {ending : Ending} {log : System} : Escape i a ending log → Course i a (Command.finish log ending "")
  | refused {e : LoadError} : a.config ≠ some none → i.loader.load i.files a.config.join = .error e →
      e.isReported = true →
      Course i a (Command.finish (i.opening.log i.time (i.errorRecord e.message)) (.status 2) "")
  | unread {s : Settings} {level : Level} {path : String} {e : PathError} : i.Prepared a s level →
      a.input = some path → path ≠ "-" → (i.announced s level).files.read (Points.ofString path) = .error e →
      e.isReported = true →
      Course i a (Command.finish
        ((i.announced s level).log i.time (i.errorRecord s!"Cannot read input '{path}': {e.message}")) (.status 2) "")
  | evaluated {s : Settings} {level : Level} {text : String} {report : Report} : i.Prepared a s level →
      i.input a s level = .ok text → run i.start.logger s.showCycle text = .ok report →
      Course i a (Command.finish ((i.announced s level).logAll i.time report.records) (.status report.status)
        report.stdout)

variable {i : Invocation} {a : Arguments} {s : Settings} {level : Level}

/-! ## What comes of each stage -/

/-- A log file that cannot be opened keeps a log from being set up, and nothing else does. -/
theorem logged_eq_error_iff {e : PathError} :
    (i.logged s level).2 = .error e ↔
      ∃ path, s.logFile = some path ∧ path ≠ [] ∧ i.files.openAppend (i.files.plainPath path) = .error e := by
  have hfiles : i.opening.files = i.files := rfl
  unfold logged System.setup
  cases hfile : s.logFile with
  | none => simp
  | some path =>
    simp only [hfiles, List.isEmpty_iff, Option.some.injEq, exists_eq_left', ne_eq]
    by_cases hpath : path = []
    · simp [hpath]
    · simp only [hpath, not_false_eq_true, true_and]
      cases i.files.openAppend (i.files.plainPath path) with
      | error e' => simp
      | ok opened => simp

/-- Reading the input fails with a file, which cannot be opened or is no text. -/
theorem readInput_eq_error_iff {files : Tree} {stdin : String} {input : Option String} {cause : Option PathError} :
    Command.readInput files stdin input = .error cause ↔
      ∃ path, input = some path ∧ path ≠ "-" ∧
        ((∃ e, files.read (Points.ofString path) = .error e ∧ cause = some e) ∨
          ∃ bytes, files.read (Points.ofString path) = .ok bytes ∧ decode? bytes = none ∧ cause = none) := by
  unfold Command.readInput
  cases input with
  | none => simp
  | some path =>
    simp only [Option.some.injEq, exists_eq_left', ne_eq]
    by_cases hpath : path = "-"
    · simp [hpath]
    · simp only [hpath, not_false_eq_true, true_and]
      cases files.read (Points.ofString path) with
      | error e => simp [eq_comm]
      | ok bytes =>
        cases hdecode : decode? bytes with
        | none => simp [hdecode, eq_comm]
        | some text => simp [hdecode]

section

variable (h : Arguments.parse i.arguments = .ok (.run a))

include h

theorem outcome_of_accepted : i.outcome = Command.runArguments i.loader i.start i.time i.stdin i.files a := by
  rw [outcome, Command.execute, h]

/-- The run when its settings cannot be loaded. -/
theorem outcome_of_load_error (hpath : a.config ≠ some none) {e : LoadError}
    (hload : i.loader.load i.files a.config.join = .error e) :
    i.outcome =
      if e.isReported then Command.finish (i.opening.log i.time (i.errorRecord e.message)) (.status 2) ""
      else Command.finish i.opening (endingOf e) "" := by
  have hload' : i.loader.load (({ files := i.files } : System).setup Level.warning none).1.files a.config.join =
      .error e := hload
  rw [outcome_of_accepted h, Command.runArguments, if_neg hpath]
  simp only [hload']
  cases e <;> rfl

/-- The run when its settings are loaded and it begins to log as they ask. -/
theorem outcome_of_settles (hs : i.Settles a s level) :
    i.outcome = match (i.logged s level).2 with
      | .error e => Command.finish (i.logged s level).1 (.unopenable e) ""
      | .ok () => Command.evaluateInput i.start i.time i.stdin a s (i.logged s level).1 := by
  obtain ⟨hpath, ⟨loaded, hload, rfl⟩, hlevel⟩ := hs
  have hload' : i.loader.load (({ files := i.files } : System).setup Level.warning none).1.files a.config.join =
      .ok loaded := hload
  rw [outcome_of_accepted h, Command.runArguments, if_neg hpath]
  simp only [hload', hlevel]
  rw [logged, opening]
  obtain ⟨log, opened⟩ := System.setup _ level (Command.override a loaded).logFile
  cases opened <;> rfl

/-- The run when it logs. -/
theorem outcome_of_logged (hs : i.Settles a s level) (hlog : (i.logged s level).2 = .ok ()) :
    i.outcome =
      if Command.greatestLimit < s.nestingLimit.getD 0 then Command.finish (i.announced s level) .limitTooLarge ""
      else match i.input a s level with
      | .error none => Command.finish (i.announced s level) .undecodable ""
      | .error (some e) =>
        let path := a.input.getD ""
        if e.isReported then
          Command.finish ((i.announced s level).log i.time (i.errorRecord s!"Cannot read input '{path}': {e.message}"))
            (.status 2) ""
        else Command.finish (i.announced s level) (.unopenable e) ""
      | .ok text =>
        match run i.start.logger s.showCycle text with
        | .error e => Command.finish (i.announced s level) (.failed e) ""
        | .ok report =>
          Command.finish ((i.announced s level).logAll i.time report.records) (.status report.status)
            report.stdout := by
  rw [outcome_of_settles h hs, hlog]
  rfl

/-- The run when it reads a text. -/
theorem outcome_of_input (hs : i.Prepared a s level) {text : String} (hinput : i.input a s level = .ok text)
    {report : Report} (hrun : run i.start.logger s.showCycle text = .ok report) :
    i.outcome =
      Command.finish ((i.announced s level).logAll i.time report.records) (.status report.status) report.stdout := by
  rw [outcome_of_logged h hs.settles hs.logs, if_neg (Int.not_lt.mpr hs.limit), hinput]
  simp only [hrun]

/-- The run when it cannot read its input. -/
theorem outcome_of_input_error (hs : i.Prepared a s level) {path : String} (hpath : a.input = some path) {e : PathError}
    (hinput : i.input a s level = .error (some e)) :
    i.outcome =
      if e.isReported then
        Command.finish ((i.announced s level).log i.time (i.errorRecord s!"Cannot read input '{path}': {e.message}"))
          (.status 2) ""
      else Command.finish (i.announced s level) (.unopenable e) "" := by
  rw [outcome_of_logged h hs.settles hs.logs, if_neg (Int.not_lt.mpr hs.limit), hinput, hpath]
  rfl

/-- What ends a run without a status does so. -/
theorem outcome_of_escape {ending : Ending} {log : System} (he : Escape i a ending log) :
    i.outcome = Command.finish log ending "" := by
  cases he with
  | noPath hpath => rw [outcome_of_accepted h, Command.runArguments, if_pos hpath]; rfl
  | settings hpath hload hreported => simp [outcome_of_load_error h hpath hload, hreported]
  | logFile hs hfile hpath hopen =>
    rw [outcome_of_settles h hs, logged_eq_error_iff.mpr ⟨_, hfile, hpath, hopen⟩]
  | limit hs hlog hlimit => rw [outcome_of_logged h hs hlog, if_pos hlimit]
  | undecodable hs hpath hfile hread hdecode =>
    have hinput : i.input a _ _ = .error none :=
      readInput_eq_error_iff.mpr ⟨_, hpath, hfile, .inr ⟨_, hread, hdecode, rfl⟩⟩
    rw [outcome_of_logged h hs.settles hs.logs, if_neg (Int.not_lt.mpr hs.limit), hinput]
  | unopenable hs hpath hfile hread hreported =>
    have hinput : i.input a _ _ = .error (some _) :=
      readInput_eq_error_iff.mpr ⟨_, hpath, hfile, .inl ⟨_, hread, rfl⟩⟩
    simp [outcome_of_input_error h hs hpath hinput, hreported]

/-- A run that is prepared reads its input. -/
theorem course_of_prepared (hs : i.Prepared a s level) : Course i a i.outcome := by
  cases hinput : i.input a s level with
  | error cause =>
    obtain ⟨path, hpath, hfile, ⟨e, hread, rfl⟩ | ⟨bytes, hread, hdecode, rfl⟩⟩ := readInput_eq_error_iff.mp hinput
    · rw [outcome_of_input_error h hs hpath hinput]
      by_cases he : e.isReported = true
      · rw [if_pos he]
        exact .unread hs hpath hfile hread he
      · rw [if_neg he]
        exact .escape (.unopenable hs hpath hfile hread (by simpa using he))
    · have hescape : Escape i a .undecodable (i.announced s level) := .undecodable hs hpath hfile hread hdecode
      exact outcome_of_escape h hescape ▸ .escape hescape
  | ok text =>
    obtain ⟨report, hrun, -⟩ := run_cases i.start.logger s.showCycle text
    rw [outcome_of_input h hs hinput hrun]
    exact .evaluated hs hinput hrun

/-- A run whose settings are loaded begins to log as they ask. -/
theorem course_of_settles (hs : i.Settles a s level) : Course i a i.outcome := by
  cases hlog : (i.logged s level).2 with
  | error e =>
    obtain ⟨path, hfile, hpath, hopen⟩ := logged_eq_error_iff.mp hlog
    have hescape : Escape i a (.unopenable e) (i.logged s level).1 := .logFile hs hfile hpath hopen
    exact outcome_of_escape h hescape ▸ .escape hescape
  | ok u =>
    by_cases hlimit : Command.greatestLimit < s.nestingLimit.getD 0
    · have hescape : Escape i a .limitTooLarge (i.announced s level) := .limit hs hlog hlimit
      exact outcome_of_escape h hescape ▸ .escape hescape
    · exact course_of_prepared h ⟨hs, hlog, Int.not_lt.mp hlimit⟩

/-- **A run takes one of the courses.** -/
theorem course_outcome : Course i a i.outcome := by
  by_cases hpath : a.config = some none
  · have hescape : Escape i a .noPath i.opening := .noPath hpath
    exact outcome_of_escape h hescape ▸ .escape hescape
  · cases hload : i.loader.load i.files a.config.join with
    | error e =>
      rw [outcome_of_load_error h hpath hload]
      by_cases he : e.isReported = true
      · rw [if_pos he]
        exact .refused hpath hload he
      · rw [if_neg he]
        exact .escape (.settings hpath hload (by simpa using he))
    | ok loaded =>
      obtain ⟨level, -, hlevel⟩ := Command.level?_override hload a
      exact course_of_settles h ⟨hpath, ⟨loaded, hload, rfl⟩, hlevel⟩

end

/-! ## What is reported -/

theorem reports_opening (i : Invocation) : i.opening.Reports :=
  .setup Loggers.plain_empty (by decide) none

theorem Settles.level_le (hs : i.Settles a s level) : level ≤ Level.error := by
  obtain ⟨-, ⟨loaded, hload, rfl⟩, hlevel⟩ := hs
  obtain ⟨level', hle, hlevel'⟩ := Command.level?_override hload a
  obtain rfl := Option.some.inj (hlevel.symm.trans hlevel')
  exact hle

theorem Settles.reports_logged (hs : i.Settles a s level) : (i.logged s level).1.Reports :=
  .setup i.reports_opening.plain hs.level_le s.logFile

theorem Settles.reports_announced (hs : i.Settles a s level) : (i.announced s level).Reports := by
  unfold announced
  split
  · exact hs.reports_logged.log _ _
  · exact hs.reports_logged

/-- An error that the command reports is written to standard error. -/
theorem stderr_finish_log {log : System} (h : log.Reports) (i : Invocation) (message : String) (ending : Ending)
    (stdout : String) :
    (Command.finish (log.log i.time (i.errorRecord message)) ending stdout).stderr =
      String.join log.consoles ++ (i.errorRecord message).line i.time := by
  refine h.join_log i.time rfl ?_
  cases hstart : i.start <;> simp [errorRecord, hstart, Start.logger] <;> decide

end Invocation

end EvalOrder
