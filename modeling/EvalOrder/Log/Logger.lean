import EvalOrder.Log.Record
import EvalOrder.Table

/-!
# Loggers

Loggers have dotted names. A logger is made when its name is first used (`getLogger`), and is put below another one: the
nearest of those above it that was made, or else the root. Above it are the names that its own one goes on from with a
dot. A new logger comes between those that it is above of and what they were below, except for one that is already below
a name which begins with that of the new logger.

A logger without a level of its own (level 0) goes by that of the one that it is below (`getEffectiveLevel`). It takes
the records whose level is positive and at least that (`isEnabledFor`). What a logger was found to take holds until a
level is given (`setLevel`). Left out are filters, `disable` and loggers that do not pass their records on: nothing sets
them.

Results:
* `takes_fst_of_plain`: as long as no logger has a level of its own, all go by that of the root.
* `Plain.takes`, `Plain.setLevel`: taking records keeps it so, and so does giving the root a level.
-/

namespace EvalOrder.Log

/-- The name of the root. -/
def rootName : String := "root"

/-- A logger: its own level, and the name of the one that it is below. -/
structure Logger where
  level : Level := 0
  below : String := rootName
  deriving DecidableEq, Repr

/-- The level of the root, the loggers that were made, and what was found since a level was given last. -/
structure Loggers where
  root : Level := Level.warning
  made : Table String Logger := []
  found : Table (String × Level) Bool := []
  deriving DecidableEq, Repr

namespace Loggers

/-- The root goes by the empty name too. -/
def isRoot (name : String) : Bool := name = "" || name = rootName

/-- A logger that was made. -/
def logger? (ls : Loggers) (name : String) : Option Logger := Table.get? ls.made name

/-! ## What is above a name -/

/-- The beginnings of a name that end before a dot, the longest first. The name and they are given backwards. A
dot at the very beginning does not count, nor does one that another dot follows, if that one counts. -/
def beginnings : List Char → List (List Char)
  | '.' :: c :: rest => (c :: rest) :: beginnings rest
  | _ :: rest => beginnings rest
  | [] => []

/-- The names above a name, the nearest first. -/
def above (name : String) : List String :=
  (beginnings name.toList.reverse).map fun cs => String.ofList cs.reverse

/-! ## Making loggers -/

/-- The name that a new logger is put below. -/
def placeOf (ls : Loggers) (name : String) : String :=
  ((above name).find? fun other => (ls.logger? other).isSome).getD rootName

/-- A logger when a new one was made: it may have to go below that. -/
def settle (new : String) (e : String × Logger) : String × Logger :=
  if (above e.1).contains new && !new.toList.isPrefixOf e.2.below.toList then (e.1, { e.2 with below := new })
  else e

/-- Make a logger, unless it is there. -/
def make (ls : Loggers) (name : String) : Loggers :=
  if isRoot name || (ls.logger? name).isSome then ls
  else { ls with made := ls.made.map (settle name) ++ [(name, { below := ls.placeOf name })] }

/-! ## Levels -/

/-- A logger's own level, 0 when it has none. -/
def ownLevel (ls : Loggers) (name : String) : Level :=
  if isRoot name then ls.root else ((ls.logger? name).map (·.level)).getD 0

/-- Give a logger a level of its own. -/
def setLevel (ls : Loggers) (name : String) (level : Level) : Loggers :=
  if isRoot name then { ls with root := level, found := [] }
  else
    let ls := ls.make name
    let logger := (ls.logger? name).getD {}
    { ls with made := Table.put ls.made name { logger with level }, found := [] }

/-- The first level on the way from a logger to the root, which takes no more than the given steps. -/
def levelFrom (ls : Loggers) : Nat → String → Level
  | 0, _ => ls.root
  | steps + 1, name =>
    match ls.logger? name with
    | none => ls.root
    | some logger => if logger.level ≠ 0 then logger.level else ls.levelFrom steps logger.below

/-- The level that a logger goes by. No logger is below itself, so the way to the root passes each at most once. -/
def levelOf (ls : Loggers) (name : String) : Level := ls.levelFrom ls.made.length name

/-- Whether a logger that was made takes records of a level. -/
def judge (ls : Loggers) (name : String) (level : Level) : Bool × Loggers :=
  match Table.get? ls.found (name, level) with
  | some taken => (taken, ls)
  | none =>
    let taken := decide (0 < level ∧ ls.levelOf name ≤ level)
    (taken, { ls with found := Table.put ls.found (name, level) taken })

/-- Whether a logger takes records of a level. -/
def takes (ls : Loggers) (name : String) (level : Level) : Bool × Loggers := (ls.make name).judge name level

/-! ## Loggers without levels of their own -/

/-- No logger has a level of its own, and what was found goes by the level of the root. -/
structure Plain (ls : Loggers) : Prop where
  level : ∀ e ∈ ls.made, e.2.level = 0
  found : ∀ e ∈ ls.found, e.2 = decide (0 < e.1.2 ∧ ls.root ≤ e.1.2)

theorem root_make (ls : Loggers) (name : String) : (ls.make name).root = ls.root := by
  unfold make
  split <;> rfl

theorem found_make (ls : Loggers) (name : String) : (ls.make name).found = ls.found := by
  unfold make
  split <;> rfl

theorem level_settle (new : String) (e : String × Logger) : (settle new e).2.level = e.2.level := by
  unfold settle
  split <;> rfl

theorem Plain.make {ls : Loggers} (h : ls.Plain) (name : String) : (ls.make name).Plain where
  level e he := by
    unfold Loggers.make at he
    split at he
    · exact h.level e he
    · rcases List.mem_append.mp he with he | he
      · obtain ⟨e', he', rfl⟩ := List.mem_map.mp he
        rw [level_settle]
        exact h.level e' he'
      · rw [List.mem_singleton.mp he]
  found := by
    rw [found_make, root_make]
    exact h.found

theorem levelFrom_of_level {ls : Loggers} (h : ∀ e ∈ ls.made, e.2.level = 0) :
    ∀ (steps : Nat) (name : String), ls.levelFrom steps name = ls.root
  | 0, _ => rfl
  | steps + 1, name => by
    unfold levelFrom
    split
    · rfl
    · rename_i logger hl
      have h0 : logger.level = 0 := h _ (Table.mem_of_get? hl)
      simp [h0, levelFrom_of_level h steps]

theorem root_judge (ls : Loggers) (name : String) (level : Level) : (ls.judge name level).2.root = ls.root := by
  unfold judge
  split <;> rfl

theorem judge_fst_of_plain {ls : Loggers} (h : ls.Plain) (name : String) (level : Level) :
    (ls.judge name level).1 = decide (0 < level ∧ ls.root ≤ level) := by
  unfold judge
  split
  · rename_i taken ht
    exact h.found _ (Table.mem_of_get? ht)
  · simp only [levelOf, levelFrom_of_level h.level]

theorem Plain.judge {ls : Loggers} (h : ls.Plain) (name : String) (level : Level) :
    (ls.judge name level).2.Plain := by
  unfold Loggers.judge
  split
  · exact h
  · refine ⟨h.level, fun e he => ?_⟩
    rcases Table.mem_put he with rfl | he
    · simp only [levelOf, levelFrom_of_level h.level]
    · exact h.found e he

theorem root_takes (ls : Loggers) (name : String) (level : Level) : (ls.takes name level).2.root = ls.root :=
  (root_judge _ name level).trans (root_make ls name)

theorem takes_fst_of_plain {ls : Loggers} (h : ls.Plain) (name : String) (level : Level) :
    (ls.takes name level).1 = decide (0 < level ∧ ls.root ≤ level) := by
  rw [takes, judge_fst_of_plain (h.make name), root_make]

theorem Plain.takes {ls : Loggers} (h : ls.Plain) (name : String) (level : Level) :
    (ls.takes name level).2.Plain :=
  (h.make name).judge name level

theorem Plain.setLevel {ls : Loggers} (h : ls.Plain) {name : String} (hn : isRoot name) (level : Level) :
    (ls.setLevel name level).Plain := by
  unfold Loggers.setLevel
  rw [if_pos hn]
  exact ⟨h.level, fun _ he => absurd he List.not_mem_nil⟩

theorem plain_empty : ({} : Loggers).Plain :=
  ⟨fun _ he => absurd he List.not_mem_nil, fun _ he => absurd he List.not_mem_nil⟩

end Loggers

end EvalOrder.Log
