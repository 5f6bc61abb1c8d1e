import EvalOrder.Command
import Std.Time.Zoned

/-!
# The program

The command on the files of the system. What stands on the way of every path that the run may look up is read
before it, and the files that the run has changed are written after it.
-/

namespace EvalOrder.Main

open Files
open Text (Points)

/-- The path of a place, if it is a string. -/
def pathString? (names : Names) : Option String := Points.string? (pathOf names)

/-- Add what stands on the way of a path. A place whose path is no string is passed over. -/
def observe (files : Tree) (path : Points) : IO Tree := do
  let here ← IO.currentDir
  (files.places path).foldlM (fun files names => do
    let add (node : Node) : Tree := { files with nodes := Table.put files.nodes names node }
    match pathString? names with
    | none => return files
    | some absolute =>
      let place := here / absolute
      if (files.find names).isSome then return files
      else if ← place.isDir then return add .directory
      else if ← place.pathExists then return add (.file (← IO.FS.readBinFile place).toList)
      else return files) files

/-- Add what stands on the way of a path, if it can be looked up. -/
def observeChecked (files : Tree) (path : Points) : IO Tree :=
  if (checkPath path).isOk then observe files path else return files

/-- The files that a run may look up. -/
def observeAll (a : Arguments) : IO Tree := do
  let here := Points.ofString (← IO.currentDir).toString
  let empty : Tree := { directory := descend [] (namesOf here) }
  let files ← ((a.config.join.toList ++ a.input.toList).map Points.ofString).foldlM observeChecked empty
  match Settings.loader.load files a.config.join with
  | .ok s =>
    match (Command.override a s).logFile with
    | some path => observeChecked files (files.plainPath path)
    | none => return files
  | .error _ => return files

/-- The bytes of a stream up to its end. -/
partial def readToEnd (stream : IO.FS.Stream) (bytes : ByteArray) : IO ByteArray := do
  let more ← stream.read 65536
  if more.isEmpty then return bytes else readToEnd stream (bytes ++ more)

/-- Standard input, if the run reads it and it is a text. -/
def readStdin (a : Arguments) : IO (Option String) := do
  if a.input.getD "-" = "-" then
    let bytes ← readToEnd (← IO.getStdin) ByteArray.empty
    return decode? bytes.toList
  else return some ""

/-- A number in at least `width` digits. -/
def padded (width : Nat) (n : Int) : String :=
  let digits := toString n
  "".pushn '0' (width - digits.length) ++ digits

/-- The time by the clock, to the second. -/
def stamp : IO String := do
  let now ← Std.Time.PlainDateTime.now
  let date := s!"{padded 4 now.year.toInt}-{padded 2 now.month.toInt}-{padded 2 now.day.toInt}"
  let time := s!"{padded 2 now.hour.toInt}:{padded 2 now.minute.toInt}:{padded 2 now.second.toInt}"
  return date ++ " " ++ time

/-- Write the files that have changed. -/
def writeBack (before after : Tree) : IO Unit := do
  for (names, node) in after.nodes do
    if Table.get? before.nodes names ≠ some node then
      if let (.file bytes, some path) := (node, pathString? names) then
        IO.FS.writeBinFile path ⟨bytes.toArray⟩

/-- Print what a run leaves. -/
def report (outcome : Outcome) : IO UInt32 := do
  IO.print outcome.stdout
  IO.eprint outcome.stderr
  match outcome.ending with
  | .status n => return n.toUInt32
  | .exit n => return n.toUInt32
  | .undecodable => IO.eprintln "A file is not valid UTF-8."; return 1
  | .unopenable e => IO.eprintln e.message; return 1
  | .unloadable e => IO.eprintln e.message; return 1
  | .noPath => IO.eprintln Command.noPathMessage; return 1
  | .noLevel name => IO.eprintln (Command.noLevelMessage name); return 1
  | .limitTooLarge => IO.eprintln Command.limitMessage; return 1
  | .failed e => IO.eprintln e.message; return 1

/-- Run the command that the arguments ask for. -/
def run (arguments : List String) : IO UInt32 := do
  match Arguments.parse arguments with
  | .ok (.run a) =>
    let files ← observeAll a
    match ← readStdin a with
    | none => report { ending := .undecodable, files }
    | some stdin =>
      let outcome := Command.execute Settings.loader .alone (← stamp) arguments stdin files
      writeBack files outcome.files
      report outcome
  | _ => report (Command.execute Settings.loader .alone "" arguments "" {})

end EvalOrder.Main

/-- Run the command on the arguments that the program is given. -/
def main (arguments : List String) : IO UInt32 := EvalOrder.Main.run arguments
