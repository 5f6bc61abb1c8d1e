/-!
# Log records

A record has a level, the name of the logger it went through and a message. Its line in a log begins with the time at
which it was written (`LOG_FORMAT`), which is given as a text in the form of `DATE_FORMAT`.
-/

namespace EvalOrder.Log

/-- How grave a record is; graver ones have higher levels. -/
abbrev Level := Int

namespace Level

def debug : Level := 10
def info : Level := 20
def warning : Level := 30
def error : Level := 40
def critical : Level := 50

/-- The levels that have a name of their own. -/
def named : List (String × Level) :=
  [("DEBUG", debug), ("INFO", info), ("WARNING", warning), ("ERROR", error), ("CRITICAL", critical)]

/-- The name of a level. -/
def name (n : Level) : String :=
  match named.find? (·.2 = n) with
  | some e => e.1
  | none => s!"Level {n}"

/-- The level of a name. -/
def ofName? (s : String) : Option Level := named.lookup s

end Level

/-- A message at a level, through a logger. -/
structure Record where
  level : Level
  logger : String
  message : String
  deriving DecidableEq, Repr

/-- The line of a record written at `time`. -/
def Record.line (time : String) (r : Record) : String :=
  s!"{time} [{r.level.name}] {r.logger}: {r.message}\n"

end EvalOrder.Log
