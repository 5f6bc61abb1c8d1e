import EvalOrder.Proofs.Stages

/-!
# How runs end

A run whose arguments are accepted ends with a status, 0, 1 or 2, unless one of a few things ends it without
(`Escape`). Status 2 goes with an error that is reported on standard error, and with nothing on standard output
(`ReportsError`); the other two are those of evaluating a text. What a run has to do with logging and settings shows in
neither: it is the text alone that they depend on.

Results:
* `reportsError_of_load_error`, `reportsError_of_input_error`: what is reported.
* **`status_iff_no_escape`**: when a run ends with a status.
* `outcome_of_reads`: a run that reads a text answers as evaluating it does.
* `reads_of_status`: a run that ends with a status reports an error or has read a text.
* **`status_of_text`**: the status and standard output are those of the text that is read.
-/

namespace EvalOrder

open Files Log
open Text (Points)

/-- Whoever runs it, and whether circles are shown, a text has one status and one answer. -/
theorem run_answer (logger logger' : String) (showCycle showCycle' : Bool) (text : String) :
    (run logger showCycle text).map (fun r => (r.status, r.stdout)) =
      (run logger' showCycle' text).map fun r => (r.status, r.stdout) := by
  cases hanswer : (evaluate text).outcome with
  | ok labels => simp [run, hanswer, Except.map]
  | error e => cases e <;> simp [run, hanswer, Except.map]

theorem status_le_one {logger : String} {showCycle : Bool} {text : String} {r : Report}
    (h : run logger showCycle text = .ok r) : r.status ≤ 1 := by
  obtain ⟨r', hrun, hr⟩ := run_cases logger showCycle text
  obtain rfl : r = r' := Except.ok.inj (h.symm.trans hrun)
  rcases hr with ⟨hlists, -⟩ | ⟨hmalformed, -⟩ | ⟨hcyclic, -⟩
  · rw [hlists.status_eq]
    exact Nat.zero_le 1
  · exact Nat.le_of_eq hmalformed.1
  · exact Nat.le_of_eq hcyclic.1

namespace Invocation

variable {i : Invocation} {a : Arguments} {s : Settings} {level : Level}

/-- The run ends with status 2 and prints nothing but the record of an error, which is the last thing on standard
error. -/
def ReportsError (i : Invocation) (message : String) : Prop :=
  i.outcome.ending = .status 2 ∧ i.outcome.stdout = "" ∧
    ∃ before, i.outcome.stderr = before ++ (i.errorRecord message).line i.time

/-- Settings that cannot be loaded are reported, if they are, before anything else is. -/
theorem reportsError_of_load_error (h : Arguments.parse i.arguments = .ok (.run a)) (hpath : a.config ≠ some none)
    {e : LoadError} (hload : i.loader.load i.files a.config.join = .error e) (he : e.isReported = true) :
    i.ReportsError e.message := by
  rw [ReportsError, outcome_of_load_error h hpath hload, if_pos he]
  exact ⟨rfl, rfl, _, stderr_finish_log i.reports_opening i e.message _ _⟩

/-- So is an input that cannot be opened. -/
theorem reportsError_of_input_error (h : Arguments.parse i.arguments = .ok (.run a)) (hs : i.Prepared a s level)
    {path : String} (hpath : a.input = some path) (hfile : path ≠ "-") {e : PathError}
    (hread : (i.announced s level).files.read (Points.ofString path) = .error e) (he : e.isReported = true) :
    i.ReportsError s!"Cannot read input '{path}': {e.message}" := by
  have hinput : i.input a s level = .error (some e) :=
    readInput_eq_error_iff.mpr ⟨path, hpath, hfile, .inl ⟨e, hread, rfl⟩⟩
  rw [ReportsError, outcome_of_input_error h hs hpath hinput, if_pos he]
  exact ⟨rfl, rfl, _, stderr_finish_log hs.settles.reports_announced i _ _ _⟩

/-- What ends a run without a status is no status. -/
theorem Escape.ending_ne {ending : Ending} {log : System} (h : Escape i a ending log) (n : Nat) :
    ending ≠ .status n := by
  cases h with
  | @settings e _ _ _ => cases e <;> exact Ending.noConfusion
  | _ => exact Ending.noConfusion

theorem message_unreadable (path : String) {e : PathError} (he : e.isReported = true) :
    (LoadError.unreadable path e).message = s!"Cannot read configuration '{path}': {e.message}" := by
  unfold LoadError.message
  simp only [if_pos he]

/-- **When a run ends with a status.** It does so unless something ends it without, and then nothing is printed on
standard output. A path that leads to no file ends it with status 2, whether it was to be that of the settings or that
of the input. -/
theorem status_iff_no_escape (h : Arguments.parse i.arguments = .ok (.run a)) :
    ((∃ n ≤ 2, i.outcome.ending = .status n) ↔ ¬ ∃ ending log, Escape i a ending log) ∧
    (∀ ending log, Escape i a ending log → i.outcome.ending = ending ∧ i.outcome.stdout = "") ∧
    (∀ path fault place, a.config = some (some path) →
      i.files.read (Points.ofString path) = .error (.fault fault place) →
      i.ReportsError s!"Cannot read configuration '{path}': {(PathError.fault fault place).message}") ∧
    ∀ s level path fault place, i.Prepared a s level → a.input = some path → path ≠ "-" →
      (i.announced s level).files.read (Points.ofString path) = .error (.fault fault place) →
      i.ReportsError s!"Cannot read input '{path}': {(PathError.fault fault place).message}" := by
  refine ⟨⟨?_, ?_⟩, ?_, ?_, ?_⟩
  · rintro ⟨n, -, hstatus⟩ ⟨ending, log, hescape⟩
    rw [outcome_of_escape h hescape] at hstatus
    exact hescape.ending_ne n hstatus
  · intro hnone
    have hcourse := course_outcome h
    generalize i.outcome = outcome at hcourse
    cases hcourse with
    | escape hescape => exact absurd ⟨_, _, hescape⟩ hnone
    | refused _ _ _ => exact ⟨2, Nat.le_refl 2, rfl⟩
    | unread _ _ _ _ _ => exact ⟨2, Nat.le_refl 2, rfl⟩
    | evaluated _ _ hrun => exact ⟨_, Nat.le_succ_of_le (status_le_one hrun), rfl⟩
  · intro ending log hescape
    rw [outcome_of_escape h hescape]
    exact ⟨rfl, rfl⟩
  · intro path fault place hconfig hread
    have hpath : a.config ≠ some none := by simp [hconfig]
    have hload : i.loader.load i.files a.config.join = .error (.unreadable path (.fault fault place)) := by
      rw [hconfig]
      exact Loader.load_of_read_error hread
    rw [← message_unreadable path rfl]
    exact reportsError_of_load_error h hpath hload rfl
  · intro s level path fault place hs hpath hfile hread
    exact reportsError_of_input_error h hs hpath hfile hread rfl

/-- The file `gone.txt` is not there. -/
theorem status_of_missing_input :
    let i : Invocation := { time := "2024-01-01 00:00:00", arguments := ["gone.txt"], files := {} }
    i.ReportsError "Cannot read input 'gone.txt': [Errno 2] No such file or directory: 'gone.txt'" := by
  intro i
  have haccepted : Arguments.parse i.arguments = .ok (.run { input := some "gone.txt" }) := by decide +kernel
  have hs : i.Prepared { input := some "gone.txt" } {} Level.warning := by
    refine ⟨⟨by decide, ⟨{}, Settings.loader_load_none _, rfl⟩, by decide +kernel⟩, rfl, by decide⟩
  have hread : (i.announced {} Level.warning).files.read (Points.ofString "gone.txt") =
      .error (.fault .notFound (Points.ofString "gone.txt")) := by
    decide +kernel
  have hreports := (status_iff_no_escape haccepted).2.2.2 {} Level.warning "gone.txt" _ _ hs rfl (by decide) hread
  have hmessage : (PathError.fault .notFound (Points.ofString "gone.txt")).message =
      "[Errno 2] No such file or directory: 'gone.txt'" := by
    decide +kernel
  rw [hmessage] at hreports
  exact hreports

/-- The file `bad.txt` holds a byte that is no character, and the run ends without a status. -/
theorem no_status_of_undecodable_input :
    let i : Invocation :=
      { time := "2024-01-01 00:00:00", arguments := ["bad.txt"]
        files := { nodes := [([Points.ofString "bad.txt"], .file [0x61, 0xFF])] } }
    Arguments.parse i.arguments = .ok (.run { input := some "bad.txt" }) ∧ i.outcome.ending = .undecodable ∧
      ¬ ∃ n, i.outcome.ending = .status n := by
  intro i
  have haccepted : Arguments.parse i.arguments = .ok (.run { input := some "bad.txt" }) := by decide +kernel
  have hs : i.Prepared { input := some "bad.txt" } {} Level.warning := by
    refine ⟨⟨by decide, ⟨{}, Settings.loader_load_none _, rfl⟩, by decide +kernel⟩, rfl, by decide⟩
  have hread : (i.announced {} Level.warning).files.read (Points.ofString "bad.txt") = .ok [0x61, 0xFF] := by
    decide +kernel
  have hescape : Escape i { input := some "bad.txt" } .undecodable (i.announced {} Level.warning) :=
    .undecodable hs rfl (by decide) hread (by decide +kernel)
  have hending : i.outcome.ending = .undecodable := by rw [outcome_of_escape haccepted hescape]; rfl
  exact ⟨haccepted, hending, fun ⟨n, hn⟩ => hescape.ending_ne n (hending ▸ hn)⟩

/-! ## What the answer depends on -/

/-- The run comes to read a text. -/
def Reads (i : Invocation) (text : String) : Prop :=
  ∃ a s level, Arguments.parse i.arguments = .ok (.run a) ∧ i.Prepared a s level ∧ i.input a s level = .ok text

/-- A run that reads a text ends and prints as evaluating the text does. -/
theorem outcome_of_reads {text : String} (h : i.Reads text) (logger : String) :
    ∃ n, i.outcome.ending = .status n ∧
      (run logger false text).map (fun r => (r.status, r.stdout)) = .ok (n, i.outcome.stdout) := by
  obtain ⟨a, s, level, haccepted, hs, hinput⟩ := h
  obtain ⟨report, hrun, -⟩ := run_cases i.start.logger s.showCycle text
  refine ⟨report.status, ?_, ?_⟩
  · rw [outcome_of_input haccepted hs hinput hrun]
    rfl
  · rw [outcome_of_input haccepted hs hinput hrun, run_answer logger i.start.logger false s.showCycle, hrun]
    rfl

/-- Only a run whose arguments are accepted ends with a status. -/
theorem accepted_of_status {n : Nat} (h : i.outcome.ending = .status n) :
    ∃ a, Arguments.parse i.arguments = .ok (.run a) := by
  unfold outcome Command.execute at h
  cases hparse : Arguments.parse i.arguments with
  | error e =>
    rw [hparse] at h
    cases h
  | ok request =>
    cases request with
    | help =>
      rw [hparse] at h
      cases h
    | run a => exact ⟨a, rfl⟩

/-- Status 2 is an error that is reported. With the others, a text was read. -/
theorem reads_of_status {n : Nat} (h : i.outcome.ending = .status n) :
    (n = 2 ∧ ∃ message, i.ReportsError message) ∨ (n ≤ 1 ∧ ∃ text, i.Reads text) := by
  obtain ⟨a, haccepted⟩ := accepted_of_status h
  have hcourse := course_outcome haccepted
  generalize i.outcome = outcome at hcourse h
  cases hcourse with
  | escape hescape => exact absurd h (hescape.ending_ne n)
  | refused hpath hload he =>
    exact .inl ⟨(Ending.status.inj h).symm, _, reportsError_of_load_error haccepted hpath hload he⟩
  | unread hs hpath hfile hopen he =>
    exact .inl ⟨(Ending.status.inj h).symm, _, reportsError_of_input_error haccepted hs hpath hfile hopen he⟩
  | evaluated hs hinput hrun =>
    obtain rfl := Ending.status.inj h
    exact .inr ⟨status_le_one hrun, _, a, _, _, haccepted, hs, hinput⟩

/-- **The answer is that of the text.** A run that ends with status 2 has reported an error and printed nothing. One
that ends with another status has read a text, and its status and what it prints are those of evaluating the text,
with circles not shown. So two runs that read the same text have one answer, whatever their settings, options, log
files and streams. -/
theorem status_of_text (i : Invocation) :
    (∀ n, i.outcome.ending = .status n → n ≤ 2 ∧ (n = 2 → ∃ message, i.ReportsError message) ∧
      (n ≠ 2 → ∃ text, i.Reads text ∧ ∀ logger,
        (run logger false text).map (fun r => (r.status, r.stdout)) = .ok (n, i.outcome.stdout))) ∧
    ∀ (j : Invocation) (text : String), i.Reads text → j.Reads text →
      i.outcome.ending = j.outcome.ending ∧ i.outcome.stdout = j.outcome.stdout := by
  constructor
  · intro n hstatus
    rcases reads_of_status hstatus with ⟨rfl, hreports⟩ | ⟨hle, text, hreads⟩
    · exact ⟨Nat.le_refl 2, fun _ => hreports, fun hne => absurd rfl hne⟩
    · have hne : n ≠ 2 := Nat.ne_of_lt (Nat.lt_succ_of_le hle)
      refine ⟨Nat.le_succ_of_le hle, fun heq => absurd heq hne, fun _ => ⟨text, hreads, fun logger => ?_⟩⟩
      obtain ⟨m, hm, hrun⟩ := outcome_of_reads hreads logger
      rw [hrun, Ending.status.inj (hm.symm.trans hstatus)]
  · intro j text hi hj
    obtain ⟨n, hn, hrun⟩ := outcome_of_reads hi i.start.logger
    obtain ⟨m, hm, hrun'⟩ := outcome_of_reads hj i.start.logger
    obtain ⟨rfl, hstdout⟩ := Prod.mk.inj (Except.ok.inj (hrun.symm.trans hrun'))
    exact ⟨hn.trans hm.symm, hstdout⟩

/-- With everything logged and without, two lines that call each other are a circle. -/
theorem status_of_verbose_run :
    let i : Invocation :=
      { time := "2024-01-01 00:00:00", arguments := ["--verbose", "--show-cycle", "--log-file", "log.txt"]
        stdin := "a=b\nb=a", files := {} }
    let j : Invocation := { time := "2024-01-01 00:00:00", arguments := ["-"], stdin := "a=b\nb=a", files := {} }
    i.Reads "a=b\nb=a" ∧ j.Reads "a=b\nb=a" ∧ i.outcome.ending = j.outcome.ending ∧
      i.outcome.stdout = j.outcome.stdout := by
  intro i j
  have hi : i.Reads "a=b\nb=a" := by
    refine ⟨{ logFile := some (some "log.txt"), showCycle := true, verbose := true },
      { levelName := Points.ofString "DEBUG", logFile := some (Points.ofString "log.txt"), showCycle := true },
      Level.debug, by decide +kernel,
      ⟨⟨by decide, ⟨{}, Settings.loader_load_none _, by decide +kernel⟩, by decide +kernel⟩, ?_, by decide⟩, rfl⟩
    decide +kernel
  have hj : j.Reads "a=b\nb=a" :=
    ⟨{ input := some "-" }, {}, Level.warning, by decide +kernel,
      ⟨⟨by decide, ⟨{}, Settings.loader_load_none _, rfl⟩, by decide +kernel⟩, rfl, by decide⟩, rfl⟩
  exact ⟨hi, hj, (status_of_text i).2 j _ hi hj⟩

end Invocation

end EvalOrder
